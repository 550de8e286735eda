import Mathlib.Data.List.Basic
import WebConfigAudit.Proofs.Passage
import WebConfigAudit.Proofs.TextSearch
import WebConfigAudit.Xml.Prolog
/-!
Where comments are, told without reading the document.  A scan over the text
looks for nothing but the openings of comments, literal sections, instructions
and declarations and, in the document type, for quote marks.  Each of them
encloses all that comes before its first closing, and what is enclosed opens
nothing else.
-/

namespace WebConfigAudit.Xml

open Text (Cursor)

/-- What a stretch of a text is.  A plain stretch is a single character of a
tag, of text, or of the document type. -/
inductive StretchKind where
  | comment
  | literal
  | instruction
  | declaration
  | quoted
  | plain
deriving DecidableEq, Repr

/-- A stretch of a text with all its characters. -/
structure Stretch where
  kind : StretchKind
  chars : List Char
deriving DecidableEq, Repr

/-- What opens a stretch and what closes it. -/
structure Enclosure where
  kind : StretchKind
  opening : List Char
  closing : List Char
deriving DecidableEq, Repr

namespace Enclosure

def comment : Enclosure := ⟨.comment, ['<', '!', '-', '-'], ['-', '-', '>']⟩

def literal : Enclosure := ⟨.literal, "<![CDATA[".toList, [']', ']', '>']⟩

def instruction : Enclosure := ⟨.instruction, ['<', '?'], ['?', '>']⟩

def declaration : Enclosure := ⟨.declaration, ['<', '!'], ['>']⟩

def quoted (mark : Char) : Enclosure := ⟨.quoted, [mark], [mark]⟩

end Enclosure

/-- The part of a document that a scan is in: elements and what stands around
the document type, the document type outside its brackets, the declarations
between the brackets, or one of an entity. -/
inductive Zone where
  | content
  | documentType
  | declarations
  | entity
deriving DecidableEq, Repr

namespace Zone

/-- What may be enclosed in the zone, the longer of two openings first. -/
def enclosures : Zone → List Enclosure
  | .content => [.comment, .literal, .instruction]
  | .declarations => [.comment, .instruction, .declaration]
  | .documentType => [.comment, .quoted '"', .quoted '\'']
  | .entity => [.comment, .quoted '"', .quoted '\'']

/-- Markup that looks like something enclosed but is not: the declaration of the
document, and that of an entity, whose value is quoted. -/
def exempt : Zone → List (List Char)
  | .content => ["<?xml ".toList]
  | .declarations => ["<!ENTITY".toList]
  | _ => []

/-- What opens here, if anything does. -/
def enclosure? (zone : Zone) (cs : List Char) : Option Enclosure :=
  if zone.exempt.any fun markup => markup.isPrefixOf cs then none
  else zone.enclosures.find? fun e => e.opening.isPrefixOf cs

/-- The zone after one character that opens nothing. -/
def after (zone : Zone) (cs : List Char) : Zone :=
  match zone with
  | .content =>
      if "<!DOCTYPE".toList.isPrefixOf cs then .documentType else .content
  | .documentType =>
      if ['['].isPrefixOf cs then .declarations
      else if ['>'].isPrefixOf cs then .content
      else .documentType
  | .declarations =>
      if "<!ENTITY".toList.isPrefixOf cs then .entity
      else if [']'].isPrefixOf cs then .documentType
      else .declarations
  | .entity => if ['>'].isPrefixOf cs then .declarations else .entity

end Zone

/-- The next stretch of a text, with the zone after it and the rest of the text.
What is never closed encloses the rest. -/
def nextStretch? (zone : Zone) (cs : List Char) :
    Option (Stretch × Zone × List Char) :=
  match cs with
  | [] => none
  | c :: rest =>
      match zone.enclosure? cs with
      | none => some (⟨.plain, [c]⟩, zone.after cs, rest)
      | some e =>
          match Text.before? e.closing (cs.drop e.opening.length) with
          | none => some (⟨e.kind, cs⟩, zone, [])
          | some inside =>
              let chars := e.opening ++ inside ++ e.closing
              some (⟨e.kind, chars⟩, zone, cs.drop chars.length)

/-- The stretches of a text from some zone on; `fuel` bounds their number. -/
def stretchesFrom : Nat → Zone → List Char → List Stretch
  | 0, _, _ => []
  | fuel + 1, zone, cs =>
      match nextStretch? zone cs with
      | none => []
      | some (stretch, next, rest) => stretch :: stretchesFrom fuel next rest

/-- The stretches of a text. -/
def stretches (cs : List Char) : List Stretch :=
  stretchesFrom cs.length .content cs

/-- The characters of consecutive stretches. -/
def charsOf (list : List Stretch) : List Char :=
  list.flatMap Stretch.chars

section Openings

variable {zone : Zone} {cs : List Char}

theorem Zone.enclosure?_comment (rest : List Char) :
    zone.enclosure? (Enclosure.comment.opening ++ rest) = some .comment := by
  cases zone <;> rfl

/-- Whatever opens here has its opening here. -/
theorem Zone.opening_prefix {e : Enclosure}
    (hopens : zone.enclosure? cs = some e) :
    e ∈ zone.enclosures ∧ e.opening <+: cs := by
  unfold enclosure? at hopens
  split at hopens
  · contradiction
  · have hbegins := List.find?_some hopens
    exact ⟨List.mem_of_find?_eq_some hopens,
      List.isPrefixOf_iff_prefix.mp hbegins⟩

/-- Whether the character may open or close something outside elements. -/
def isStructural (c : Char) : Bool :=
  ['<', '>', '[', ']', '"', '\''].contains c

/-- A character that the zone passes over whatever comes after it. -/
def Zone.isNeutral (zone : Zone) (c : Char) : Bool :=
  match zone with
  | .content => c ≠ '<'
  | _ => !isStructural c

theorem Zone.isNeutral_of_not_isStructural {c : Char}
    (hplain : isStructural c = false) : zone.isNeutral c = true := by
  cases zone with
  | content =>
      have hne : c ≠ '<' := by
        rintro rfl
        contradiction
      simpa [isNeutral] using hne
  | _ => simp [isNeutral, hplain]

/-- Whether the markup begins with a character that is not neutral. -/
def Zone.notices (zone : Zone) (markup : List Char) : Bool :=
  match markup with
  | [] => false
  | c :: _ => !zone.isNeutral c

theorem Zone.notices_markup (zone : Zone) :
    (zone.exempt.all zone.notices &&
      zone.enclosures.all fun e => zone.notices e.opening) = true := by
  cases zone <;> decide

/-- Nothing that the zone notices begins with a neutral character. -/
theorem Zone.isPrefixOf_of_isNeutral {c : Char}
    (hneutral : zone.isNeutral c = true) {markup : List Char}
    (hnotices : zone.notices markup = true) (rest : List Char) :
    markup.isPrefixOf (c :: rest) = false := by
  cases markup with
  | nil => contradiction
  | cons x markup =>
      have hne : x ≠ c := by
        rintro rfl
        simp [notices, hneutral] at hnotices
      rw [List.isPrefixOf_cons_cons, beq_eq_false_iff_ne.mpr hne,
        Bool.false_and]

theorem Zone.enclosure?_of_isNeutral {c : Char}
    (hneutral : zone.isNeutral c = true) (rest : List Char) :
    zone.enclosure? (c :: rest) = none := by
  obtain ⟨hexempt, henclosures⟩ := (Bool.and_eq_true _ _).mp zone.notices_markup
  rw [List.all_eq_true] at hexempt henclosures
  rw [enclosure?, if_neg, List.find?_eq_none]
  · intro e he
    rw [isPrefixOf_of_isNeutral hneutral (henclosures e he)]
    exact Bool.false_ne_true
  · rw [List.any_eq_true]
    rintro ⟨markup, hmarkup, hbegins⟩
    rw [isPrefixOf_of_isNeutral hneutral (hexempt markup hmarkup)] at hbegins
    contradiction

theorem Zone.after_of_isNeutral {c : Char} (hneutral : zone.isNeutral c = true)
    (rest : List Char) : zone.after (c :: rest) = zone := by
  have hother {markup : List Char} (hnotices : zone.notices markup = true) :
      ¬ markup.isPrefixOf (c :: rest) = true := by
    rw [isPrefixOf_of_isNeutral hneutral hnotices]
    exact Bool.false_ne_true
  cases zone with
  | content => rw [after, if_neg (hother (by decide))]
  | documentType =>
      rw [after, if_neg (hother (by decide)), if_neg (hother (by decide))]
  | declarations =>
      rw [after, if_neg (hother (by decide)), if_neg (hother (by decide))]
  | entity => rw [after, if_neg (hother (by decide))]

/-- The last character of a closing. -/
def Enclosure.lastChar (e : Enclosure) : Char :=
  e.closing.getLastD '<'

theorem Zone.closing_eq_append {e : Enclosure} (he : e ∈ zone.enclosures) :
    ∃ front, e.closing = front ++ [e.lastChar] ∧
      e.lastChar ∉ Enclosure.comment.opening ∧
      e.kind ≠ .plain := by
  have hall : (zone.enclosures.all fun e =>
      e.closing == e.closing.dropLast ++ [e.lastChar] &&
        !Enclosure.comment.opening.contains e.lastChar &&
        e.kind != .plain) = true := by
    cases zone <;> decide
  have hclosing := List.all_eq_true.mp hall e he
  simp only [Bool.and_eq_true, beq_iff_eq, Bool.not_eq_true', bne_iff_ne, ne_eq,
    List.contains_eq_mem, decide_eq_false_iff_not] at hclosing
  exact ⟨_, hclosing.1.1, hclosing.1.2, hclosing.2⟩

end Openings

section Cutting

variable {zone : Zone} {cs front rest : List Char}

/-- The next stretch comes first in the text, and the rest comes after it.  If
it is plain nothing opens there; otherwise it is closed or takes all that is
left. -/
theorem of_nextStretch? {stretch : Stretch} {next : Zone}
    (hnext : nextStretch? zone cs = some (stretch, next, rest)) :
    cs = stretch.chars ++ rest ∧ stretch.chars ≠ [] ∧
      ((zone.enclosure? cs = none ∧ stretch.kind = .plain ∧
        stretch.chars.length = 1) ∨
        ∃ e ∈ zone.enclosures, stretch.kind = e.kind ∧
          (rest = [] ∨ ∃ inside, stretch.chars = inside ++ e.closing)) := by
  unfold nextStretch? at hnext
  split at hnext
  · contradiction
  · next c others =>
      split at hnext
      · next hnone =>
          cases hnext
          exact ⟨rfl, by simp, Or.inl ⟨hnone, rfl, rfl⟩⟩
      · next e hopens =>
          obtain ⟨he, others', hothers⟩ := Zone.opening_prefix hopens
          split at hnext
          · cases hnext
            exact ⟨by simp, by simp, Or.inr ⟨e, he, rfl, Or.inl rfl⟩⟩
          · next inside hinside =>
              cases hnext
              rw [← hothers, List.drop_left] at hinside
              obtain ⟨after, rfl⟩ := Text.exists_rest_of_before? hinside
              obtain ⟨_, hclosing, _⟩ := Zone.closing_eq_append he
              have hsplit :
                  c :: others = e.opening ++ inside ++ e.closing ++ after := by
                rw [← hothers]
                simp
              refine ⟨?_, by simp [hclosing],
                Or.inr ⟨e, he, rfl, Or.inr ⟨_, rfl⟩⟩⟩
              rw [hsplit, List.drop_left]

/-- Part of a text lies in a stretch: `front` is the text before it. -/
structure LiesIn (list : List Stretch) (front text : List Char)
    (stretch : Stretch) : Prop where
  place : ∃ before after left right, list = before ++ stretch :: after ∧
    front = charsOf before ++ left ∧ stretch.chars = left ++ text ++ right

theorem LiesIn.cons {list : List Stretch} {text : List Char}
    {stretch first : Stretch} (hlies : LiesIn list front text stretch) :
    LiesIn (first :: list) (first.chars ++ front) text stretch := by
  obtain ⟨before, after, left, right, rfl, rfl, hchars⟩ := hlies.place
  exact ⟨first :: before, after, left, right, rfl, by simp [charsOf], hchars⟩

theorem LiesIn.head {list : List Stretch} {text left right : List Char}
    {first : Stretch} (hchars : first.chars = left ++ text ++ right) :
    LiesIn (first :: list) left text first :=
  ⟨[], list, left, right, rfl, rfl, hchars⟩

/-- A text that begins in another one ends in it, if the last character of that
one cannot be within. -/
theorem prefix_of_append_eq {text more : List Char} {x : Char} (hx : x ∉ text)
    (hlast : more.getLast? = some x) (hsplit : text ++ rest = more ++ cs) :
    text <+: more := by
  rcases List.append_eq_append_iff.mp hsplit with
    ⟨tail, hmore, _⟩ | ⟨tail, htext, _⟩
  · exact ⟨tail, hmore.symm⟩
  · rw [htext] at hx
    exact absurd (List.mem_append_left tail (List.mem_of_getLast? hlast)) hx

theorem eq_nil_of_nextStretch? (hnext : nextStretch? zone cs = none) :
    cs = [] := by
  unfold nextStretch? at hnext
  split at hnext
  · rfl
  · split at hnext
    · contradiction
    · split at hnext
      · contradiction
      · contradiction

theorem nextStretch?_of_enclosure? {e : Enclosure} {inside : List Char}
    (hopens : zone.enclosure? (e.opening ++ (inside ++ e.closing ++ rest)) =
      some e)
    (hinside : Text.before? e.closing (inside ++ e.closing ++ rest) =
      some inside) :
    nextStretch? zone (e.opening ++ (inside ++ e.closing ++ rest)) =
      some (⟨e.kind, e.opening ++ inside ++ e.closing⟩, zone, rest) := by
  have hrest : (e.opening ++ (inside ++ e.closing ++ rest)).drop
      (e.opening ++ inside ++ e.closing).length = rest := by
    rw [← List.append_assoc, ← List.append_assoc, List.drop_left]
  obtain ⟨c, cs, hcs⟩ : ∃ c cs, e.opening ++ (inside ++ e.closing ++ rest) =
      c :: cs := by
    obtain ⟨_, hclosing, _⟩ :=
      Zone.closing_eq_append (Zone.opening_prefix hopens).1
    exact List.exists_cons_of_ne_nil (by simp [hclosing])
  rw [hcs] at hopens hrest ⊢
  have hdrop : (c :: cs).drop e.opening.length =
      inside ++ e.closing ++ rest := by
    rw [← hcs, List.drop_left]
  simp only [nextStretch?, hopens, hdrop, hinside, hrest]

theorem nextStretch?_of_plain {c : Char}
    (hnone : zone.enclosure? (c :: rest) = none) :
    nextStretch? zone (c :: rest) =
      some (⟨.plain, [c]⟩, zone.after (c :: rest), rest) := by
  simp only [nextStretch?, hnone]

/-- A comment that opens within the next stretch is within it, and the stretch
is not plain. -/
theorem opening_prefix_of_nextStretch? {stretch : Stretch} {next : Zone}
    {others more : List Char}
    (hnext : nextStretch? zone cs = some (stretch, next, others))
    (hsplit : cs = front ++ Enclosure.comment.opening ++ rest)
    (hchars : stretch.chars = front ++ more) (hne : more ≠ []) :
    Enclosure.comment.opening <+: more ∧ stretch.kind ≠ .plain := by
  obtain ⟨hcs, _, hkind⟩ := of_nextStretch? hnext
  have hmore : Enclosure.comment.opening ++ rest = more ++ others := by
    rw [hcs, hchars, List.append_assoc, List.append_assoc,
      List.append_cancel_left_eq] at hsplit
    exact hsplit.symm
  rcases hkind with ⟨hnone, _, hlength⟩ | ⟨e, he, hkind, hclosed⟩
  · -- a single character is all of the stretch, so the opening is where the
    -- stretch begins
    have hfront : front = [] := by
      rw [hchars, List.length_append] at hlength
      have hpos := List.length_pos_iff.mpr hne
      exact List.length_eq_zero_iff.mp (by omega)
    rw [hsplit, hfront, List.nil_append, Zone.enclosure?_comment] at hnone
    contradiction
  · obtain ⟨closing, hclosing, hlast, hplain⟩ := Zone.closing_eq_append he
    refine ⟨?_, hkind ▸ hplain⟩
    rcases hclosed with rfl | ⟨inside, hinside⟩
    · exact ⟨rest, by rw [hmore, List.append_nil]⟩
    · have hend : more.getLast? = some e.lastChar := by
        have hboth : front ++ more = inside ++ closing ++ [e.lastChar] := by
          rw [← hchars, hinside, hclosing, List.append_assoc]
        rw [← List.getLast?_append_of_ne_nil front hne, hboth,
          List.getLast?_concat]
      exact prefix_of_append_eq hlast hend hmore

/-- The opening of a comment lies in a stretch that is not plain, wherever it
stands. -/
theorem exists_liesIn_of_opening {fuel : Nat} (hfuel : cs.length ≤ fuel)
    (hsplit : cs = front ++ Enclosure.comment.opening ++ rest) :
    ∃ stretch, LiesIn (stretchesFrom fuel zone cs) front
        Enclosure.comment.opening stretch ∧
      stretch.kind ≠ .plain := by
  induction fuel generalizing zone cs front with
  | zero =>
      rw [hsplit] at hfuel
      simp [Enclosure.comment] at hfuel
  | succ fuel ih =>
      cases hnext : nextStretch? zone cs with
      | none =>
          rw [eq_nil_of_nextStretch? hnext] at hsplit
          simp [Enclosure.comment] at hsplit
      | some found =>
          obtain ⟨stretch, next, others⟩ := found
          obtain ⟨hcs, hne, _⟩ := of_nextStretch? hnext
          have hshorter : others.length ≤ fuel := by
            have hpos := List.length_pos_iff.mpr hne
            rw [hcs, List.length_append] at hfuel
            omega
          rw [stretchesFrom, hnext]
          dsimp only
          have hboth := hcs.symm.trans hsplit
          rw [List.append_assoc, List.append_eq_append_iff] at hboth
          rcases hboth with ⟨more, hfront, hothers⟩ | ⟨more, hchars, hothers⟩
          · -- the opening comes after this stretch
            rw [← List.append_assoc] at hothers
            obtain ⟨found, hlies, hplain⟩ := ih hshorter hothers
            exact ⟨found, hfront ▸ hlies.cons, hplain⟩
          · by_cases hmore : more = []
            · rw [hmore, List.nil_append, ← List.nil_append (_ ++ rest),
                ← List.append_assoc] at hothers
              rw [hmore, List.append_nil] at hchars
              obtain ⟨found, hlies, hplain⟩ := ih hshorter hothers.symm
              have hcons : LiesIn (stretch :: _) _ _ _ := hlies.cons
              rw [List.append_nil, hchars] at hcons
              exact ⟨found, hcons, hplain⟩
            · obtain ⟨⟨right, hright⟩, hplain⟩ :=
                opening_prefix_of_nextStretch? hnext hsplit hchars hmore
              exact ⟨stretch,
                LiesIn.head (by rw [hchars, ← hright, List.append_assoc]),
                hplain⟩

end Cutting

end WebConfigAudit.Xml
