import WebConfigAudit.Proofs.DocumentPassage
import WebConfigAudit.Proofs.MarkupStretches
/-!
The readers of markup go from stretch to stretch.  Where the scan finds a
comment, a literal section, an instruction, a declaration or a quoted text, the
reader of a document that is accepted reads just that, and all else it reads is
plain.
-/

namespace WebConfigAudit.Xml

open Text (Cursor)

/-- The reader of such stretches gets from one place to another.  Any reader may
pass over plain characters. -/
def StretchKind.Reads (kind : StretchKind) (c d : Cursor) : Prop :=
  match kind with
  | .comment => skipComment c = some d
  | .literal => skipLiteral c = some d
  | .instruction => skipInstruction c = some d
  | .declaration => skipOther c = some d
  | .quoted => ∃ value, readQuoted c = some (value, d)
  | .plain => True

/-- The reader of the stretch passes over its characters and no others. -/
structure Stretch.IsRead (stretch : Stretch) (c d : Cursor) : Prop where
  passes : c.Passes stretch.chars d
  reads : stretch.kind.Reads c d

/-- A scan finds the stretches, and each of them is read. -/
inductive Follows : Zone → Cursor → List Stretch → Zone → Cursor → Prop where
  | nil (zone : Zone) (c : Cursor) : Follows zone c [] zone c
  | cons {zone next last : Zone} {c d e : Cursor} {stretch : Stretch}
      {list : List Stretch}
      (hnext : nextStretch? zone c.rest = some (stretch, next, e.rest))
      (hread : stretch.IsRead c e) (hrest : Follows next e list last d) :
      Follows zone c (stretch :: list) last d

namespace Follows

variable {zone next last : Zone} {c d e : Cursor} {list more : List Stretch}

theorem append (hfirst : Follows zone c list next d)
    (hrest : Follows next d more last e) :
    Follows zone c (list ++ more) last e := by
  induction hfirst with
  | nil => exact hrest
  | cons hnext hread _ ih => exact cons hnext hread (ih hrest)

/-- There is one way to cut up a text, and enough fuel finds it. -/
theorem stretchesFrom_eq (hfollows : Follows zone c list last d)
    (hend : d.rest = []) {fuel : Nat} (hfuel : c.rest.length ≤ fuel) :
    stretchesFrom fuel zone c.rest = list := by
  induction hfollows generalizing fuel with
  | nil zone c =>
      cases fuel with
      | zero => rfl
      | succ fuel => rw [hend, stretchesFrom, nextStretch?]
  | @cons zone next last c d e stretch list hnext _ _ ih =>
      obtain ⟨hrest, hne, _⟩ := of_nextStretch? hnext
      have hpos := List.length_pos_iff.mpr hne
      rw [hrest, List.length_append] at hfuel
      cases fuel with
      | zero => omega
      | succ fuel =>
          rw [stretchesFrom, hnext]
          exact congrArg (stretch :: ·) (ih hend (by omega))

/-- Every stretch is read where it stands. -/
theorem exists_isRead {before after : List Stretch} {stretch : Stretch}
    (hfollows : Follows zone c (before ++ stretch :: after) last d) :
    ∃ e f, c.Passes (charsOf before) e ∧ stretch.IsRead e f ∧
      f.Passes (charsOf after) d := by
  have hpasses {zone last : Zone} {c d : Cursor} {list : List Stretch}
      (hfollows : Follows zone c list last d) : c.Passes (charsOf list) d := by
    induction hfollows with
    | nil => exact Cursor.Passes.refl _
    | cons _ hread _ ih => exact hread.passes.trans ih
  induction before generalizing zone c with
  | nil =>
      cases hfollows with
      | cons _ hread hrest =>
          exact ⟨c, _, Cursor.Passes.refl c, hread, hpasses hrest⟩
  | cons first before ih =>
      cases hfollows with
      | cons _ hread hrest =>
          obtain ⟨e, f, hbefore, hstretch, hafter⟩ := ih hrest
          exact ⟨e, f, hread.passes.trans hbefore, hstretch, hafter⟩

end Follows

/-- Some stretches lead from one place to another, each of them read on the
way. -/
def Scans (zone : Zone) (c : Cursor) (next : Zone) (d : Cursor) : Prop :=
  ∃ list, Follows zone c list next d

section Steps

variable {zone next last : Zone} {c d e : Cursor}

theorem Scans.refl (zone : Zone) (c : Cursor) : Scans zone c zone c :=
  ⟨[], .nil zone c⟩

theorem Scans.trans (hcd : Scans zone c next d) (hde : Scans next d last e) :
    Scans zone c last e := by
  obtain ⟨list, hlist⟩ := hcd
  obtain ⟨more, hmore⟩ := hde
  exact ⟨list ++ more, hlist.append hmore⟩

/-- What is enclosed is one step. -/
theorem Scans.of_enclosure {opened : Cursor} {e : Enclosure}
    {inside : List Char} (hopens : zone.enclosure? c.rest = some e)
    (hopening : c.Passes e.opening opened)
    (hinside : Text.before? e.closing opened.rest = some inside)
    (hclosing : opened.Passes (inside ++ e.closing) d)
    (hreads : e.kind.Reads c d) : Scans zone c zone d := by
  have hpasses := hopening.trans hclosing
  rw [hclosing.rest] at hinside
  have hrest : c.rest = e.opening ++ (inside ++ e.closing ++ d.rest) := by
    rw [hopening.rest, hclosing.rest]
  rw [hrest] at hopens
  have hnext := nextStretch?_of_enclosure? hopens hinside
  rw [← hrest] at hnext
  rw [← List.append_assoc] at hpasses
  exact ⟨_, .cons hnext ⟨hpasses, hreads⟩ (.nil zone d)⟩

/-- A character that opens nothing is one step. -/
theorem Scans.of_plain {x : Char} (hpasses : c.Passes [x] d)
    (hnone : zone.enclosure? c.rest = none) :
    Scans zone c (zone.after c.rest) d := by
  have hrest : c.rest = x :: d.rest := hpasses.rest
  rw [hrest] at hnone ⊢
  have hnext := nextStretch?_of_plain hnone
  rw [← hrest] at hnext
  rw [← hrest]
  exact ⟨_, .cons hnext ⟨hpasses, trivial⟩ (.nil _ _)⟩

/-- Neutral characters stay in the zone. -/
theorem Scans.of_passes {text : List Char} (hpasses : c.Passes text d)
    (hneutral : ∀ x ∈ text, zone.isNeutral x = true) : Scans zone c zone d := by
  induction text generalizing c with
  | nil =>
      obtain rfl : d = c := by
        obtain ⟨hrest, hpos⟩ := hpasses
        cases c
        cases d
        simp_all
      exact Scans.refl zone d
  | cons x text ih =>
      rw [List.forall_mem_cons] at hneutral
      rw [← List.singleton_append] at hpasses
      obtain ⟨e, hfirst, hothers⟩ := hpasses.split
      have hstep := Scans.of_plain hfirst
        (by rw [hfirst.rest]; exact Zone.enclosure?_of_isNeutral hneutral.1 _)
      rw [hfirst.rest, List.singleton_append,
        Zone.after_of_isNeutral hneutral.1] at hstep
      exact hstep.trans (ih hothers hneutral.2)

/-- Markup that opens nothing leads to another zone with its first character, if
the others are neutral there. -/
theorem Scans.of_markup {x : Char} {text : List Char}
    (hpasses : c.Passes (x :: text) d)
    (hnone : zone.enclosure? (x :: (text ++ d.rest)) = none)
    (hafter : zone.after (x :: (text ++ d.rest)) = next)
    (hneutral : text.all next.isNeutral = true) : Scans zone c next d := by
  have hrest : c.rest = x :: (text ++ d.rest) := hpasses.rest
  rw [← List.singleton_append] at hpasses
  obtain ⟨e, hfirst, hothers⟩ := hpasses.split
  have hstep := Scans.of_plain hfirst (by rwa [hrest])
  rw [hrest, hafter] at hstep
  exact hstep.trans (Scans.of_passes hothers (List.all_eq_true.mp hneutral))

end Steps

/-! Small parts of markup -/

theorem not_isStructural_of_isSpace {x : Char} (hspace : isSpace x = true) :
    isStructural x = false := by
  simp only [isSpace, Bool.or_eq_true, beq_iff_eq] at hspace
  rcases hspace with ((rfl | rfl) | rfl) | rfl <;> decide

theorem not_isStructural_of_isNameChar {x : Char}
    (hname : isNameChar x = true) : isStructural x = false := by
  rw [Bool.eq_false_iff]
  intro hstructural
  simp only [isStructural, List.contains_eq_mem, decide_eq_true_eq,
    List.mem_cons, List.not_mem_nil, or_false] at hstructural
  rcases hstructural with rfl | rfl | rfl | rfl | rfl | rfl <;>
    exact absurd hname (by decide)

section Parts

variable {zone : Zone} {c d : Cursor}

/-- Characters none of which is structural are plain in every zone. -/
theorem Scans.of_not_structural {text : List Char} (zone : Zone)
    (hpasses : c.Passes text d) (hplain : ∀ x ∈ text, isStructural x = false) :
    Scans zone c zone d :=
  Scans.of_passes hpasses fun x hx =>
    Zone.isNeutral_of_not_isStructural (hplain x hx)

theorem scans_skipSpaces (zone : Zone) (c : Cursor) :
    Scans zone c zone (skipSpaces c) :=
  Scans.of_not_structural zone (c.passes_skip isSpace) fun _ hx =>
    not_isStructural_of_isSpace (Cursor.of_mem_run hx)

theorem scans_of_spaces? (zone : Zone) (hread : spaces? c = some d) :
    Scans zone c zone d := by
  obtain ⟨blanks, hpasses, _, hspaces⟩ := passes_of_spaces? hread
  exact Scans.of_not_structural zone hpasses fun x hx =>
    not_isStructural_of_isSpace (hspaces x hx)

theorem scans_of_char? {x : Char} (hneutral : zone.isNeutral x = true)
    (hread : char? x c = some d) : Scans zone c zone d :=
  Scans.of_passes (passes_of_char? hread)
    (List.forall_mem_singleton.mpr hneutral)

theorem scans_of_expect? {text : List Char}
    (hneutral : text.all zone.isNeutral = true)
    (hread : c.expect? text = some d) : Scans zone c zone d :=
  Scans.of_passes (Cursor.passes_of_expect? hread)
    (List.all_eq_true.mp hneutral)

theorem scans_of_readName {name : List Char} (zone : Zone)
    (hread : readName c = some (name, d)) : Scans zone c zone d := by
  obtain ⟨hpasses, hname⟩ := passes_of_readName hread
  exact Scans.of_not_structural zone hpasses fun x hx =>
    not_isStructural_of_isNameChar (hname x hx)

theorem scans_of_readQName {name : QName} (zone : Zone)
    (hread : readQName c = some (name, d)) : Scans zone c zone d :=
  Scans.of_not_structural zone (passes_of_readQName hread).1 fun _ hx =>
    not_isStructural_of_isNameChar (Cursor.of_mem_run hx)

/-- A comment is what stands between its opening and the next closing, with no
loose hyphens in it. -/
theorem passes_of_skipComment (hskip : skipComment c = some d) :
    ∃ opened inside, c.Passes Enclosure.comment.opening opened ∧
      opened.Passes (inside ++ Enclosure.comment.closing) d ∧
      Text.before? Enclosure.comment.closing opened.rest = some inside ∧
      hasLooseHyphens inside = false := by
  simp only [skipComment, Option.bind_eq_bind, Option.bind_eq_some_iff,
    Prod.exists] at hskip
  obtain ⟨opened, hopening, inside, after, htext, hskip⟩ := hskip
  split at hskip
  · contradiction
  · next hhyphens =>
      cases hskip
      obtain ⟨hinside, hclosing⟩ := passes_of_readUntil htext
      exact ⟨opened, inside, Cursor.passes_of_expect? hopening,
        hclosing, hinside, Bool.eq_false_iff.mpr hhyphens⟩

theorem scans_of_skipComment (zone : Zone) (hskip : skipComment c = some d) :
    Scans zone c zone d := by
  obtain ⟨opened, inside, hopening, hclosing, hinside, _⟩ :=
    passes_of_skipComment hskip
  have hopens : zone.enclosure? c.rest = some .comment := by
    rw [hopening.rest]
    exact Zone.enclosure?_comment _
  exact Scans.of_enclosure hopens hopening hinside hclosing hskip

theorem scans_of_skipLiteral (hskip : skipLiteral c = some d) :
    Scans .content c .content d := by
  have hreads : Enclosure.literal.kind.Reads c d := hskip
  simp only [skipLiteral, Option.bind_eq_bind, Option.bind_eq_some_iff,
    Prod.exists] at hskip
  obtain ⟨opened, hopening, text, after, htext, ⟨⟩⟩ := hskip
  have hopening := Cursor.passes_of_expect? hopening
  have hopens : Zone.content.enclosure? c.rest = some .literal := by
    rw [hopening.rest]
    rfl
  obtain ⟨hinside, hclosing⟩ := passes_of_readUntil htext
  exact Scans.of_enclosure hopens hopening hinside hclosing hreads

/-- An instruction has a name and blanks before its text, and no question mark
is in them. -/
theorem scans_of_skipInstruction
    (hzone : zone = .content ∨ zone = .declarations)
    (hskip : skipInstruction c = some d) : Scans zone c zone d := by
  have hreads : Enclosure.instruction.kind.Reads c d := hskip
  unfold skipInstruction at hskip
  split at hskip
  · contradiction
  · next hother =>
      simp only [Option.bind_eq_bind, Option.bind_eq_some_iff, Prod.exists]
        at hskip
      obtain ⟨opened, hopening, name, afterName, hname, text, after, htext,
          ⟨⟩⟩ := hskip
      have hopening := Cursor.passes_of_expect? hopening
      have hopens : zone.enclosure? c.rest = some .instruction := by
        rw [hopening.rest]
        rcases hzone with rfl | rfl
        · have hexempt :
              ¬ "<?xml ".toList.isPrefixOf (['<', '?'] ++ opened.rest) =
                true := by
            rwa [← hopening.rest]
          rw [Zone.enclosure?, if_neg (by simpa [Zone.exempt] using hexempt)]
          rfl
        · rfl
      obtain ⟨hinside, hclosing⟩ := passes_of_readUntil htext
      obtain ⟨hpasses, hplain⟩ := passes_of_readName hname
      have hfront := hpasses.trans (afterName.passes_skip isSpace)
      have hmark : '?' ∉ name ++ afterName.run isSpace := by
        rw [List.mem_append, not_or]
        constructor
        · intro hmem
          exact absurd (hplain '?' hmem) (by decide)
        · intro hmem
          exact absurd (Cursor.of_mem_run hmem) (by decide)
      have hfound : Text.before? ['?', '>'] opened.rest =
          some (name ++ afterName.run isSpace ++ text) := by
        rw [hfront.rest, Text.before?_append_of_not_mem hmark]
        exact congrArg (Option.map _) hinside
      have hboth := hfront.trans hclosing
      rw [← List.append_assoc] at hboth
      exact Scans.of_enclosure hopens hopening hfound hboth hreads

end Parts

/-! Elements -/

section Content

variable {c d : Cursor}

theorem isNeutral_of_quoteMark {mark : Char}
    (hmark : mark = '"' ∨ mark = '\'') :
    Zone.content.isNeutral mark = true := by
  rcases hmark with rfl | rfl
  · rfl
  · rfl

/-- The value of an attribute has no opening bracket in it. -/
theorem scans_of_readValue {value : Cursor}
    (hread : readValue c = some (value, d)) : Scans .content c .content d := by
  simp only [readValue, Option.bind_eq_bind, Option.bind_eq_some_iff,
    Prod.exists] at hread
  obtain ⟨mark, inside, hmark, hread⟩ := hread
  split at hread
  · obtain ⟨after, hclose, ⟨⟩⟩ := Option.bind_eq_some_iff.mp hread
    obtain ⟨hopen, hquotes⟩ := passes_of_readQuoteMark hmark
    have hneutral := isNeutral_of_quoteMark hquotes
    have hopened : Scans .content c .content inside :=
      Scans.of_passes hopen (List.forall_mem_singleton.mpr hneutral)
    have hvalue : Scans .content inside .content
        (inside.skip fun x => x ≠ mark && x ≠ '<') := by
      refine Scans.of_passes (inside.passes_skip _) fun x hx => ?_
      have hinside := Cursor.of_mem_run hx
      rw [Bool.and_eq_true] at hinside
      exact hinside.2
    exact (hopened.trans hvalue).trans (scans_of_char? hneutral hclose)
  · contradiction

theorem scans_of_readAttribute {a : Attribute}
    (hread : readAttribute c = some (a, d)) : Scans .content c .content d := by
  simp only [readAttribute, Option.bind_eq_bind, Option.bind_eq_some_iff,
    Prod.exists] at hread
  obtain ⟨name, afterName, hname, afterEquals, hequals, value, after, hvalue,
      ⟨⟩⟩ := hread
  have hnamed :=
    (scans_of_readQName .content hname).trans
      (scans_skipSpaces .content afterName)
  have hequaled := (hnamed.trans (scans_of_char? rfl hequals)).trans
    (scans_skipSpaces .content afterEquals)
  exact hequaled.trans (scans_of_readValue hvalue)

theorem scans_of_readAttributes {fuel : Nat} {attributes : List Attribute}
    {ending : TagEnd}
    (hread : readAttributes fuel c = some ((attributes, ending), d)) :
    Scans .content c .content d := by
  have hneutral {blanks markup : List Char}
      (hblanks : ∀ x ∈ blanks, isSpace x = true)
      (hmarkup : markup.all Zone.content.isNeutral = true) :
      ∀ x ∈ blanks ++ markup, Zone.content.isNeutral x = true := by
    rw [List.forall_mem_append]
    exact ⟨fun x hx =>
        Zone.isNeutral_of_not_isStructural
          (not_isStructural_of_isSpace (hblanks x hx)),
      List.all_eq_true.mp hmarkup⟩
  have hrun : ∀ x ∈ c.run isSpace, isSpace x = true := fun x hx =>
    Cursor.of_mem_run hx
  induction fuel generalizing c attributes with
  | zero => contradiction
  | succ fuel ih =>
      rcases readAttributes_cases hread with
        ⟨_, rfl, _⟩ | ⟨_, hpasses⟩ | ⟨_, hpasses⟩ |
          ⟨after, first, afterFirst, others, hafter, hfirst, hothers⟩
      · exact Scans.refl _ _
      · exact Scans.of_passes hpasses (hneutral hrun rfl)
      · exact Scans.of_passes hpasses (hneutral hrun rfl)
      · exact ((scans_of_spaces? .content hafter).trans
          (scans_of_readAttribute hfirst)).trans
          (ih hothers fun x hx => Cursor.of_mem_run hx)

/-- A bracket with anything but a mark of markup behind it opens nothing. -/
theorem enclosure?_bracket {x : Char} (hname : x ≠ '!') (hmark : x ≠ '?')
    (rest : List Char) :
    Zone.content.enclosure? ('<' :: x :: rest) = none ∧
      Zone.content.after ('<' :: x :: rest) = .content := by
  simp [Zone.enclosure?, Zone.exempt, Zone.enclosures, Zone.after,
    Enclosure.comment, Enclosure.literal, Enclosure.instruction, Ne.symm hname,
    Ne.symm hmark]

theorem scans_of_readStartTag {tag : StartTag}
    (hread : readStartTag c = some (tag, d)) : Scans .content c .content d := by
  obtain ⟨_, _, opened, afterName, fuel, hopening, hname, hattributes⟩ :=
    readStartTag_cases hread
  obtain ⟨hpassesName, hofChars⟩ := passes_of_readQName hname
  obtain ⟨x, more, hrun⟩ :=
    List.exists_cons_of_ne_nil (QName.ne_nil_of_ofChars? hofChars)
  have hx : isNameChar x = true :=
    Cursor.of_mem_run (c := opened) (by simp [hrun])
  have hopened : Scans .content c .content opened := by
    obtain ⟨hnone, hafter⟩ :=
      enclosure?_bracket (x := x) (by rintro rfl; exact absurd hx (by decide))
        (by rintro rfl; exact absurd hx (by decide)) (more ++ afterName.rest)
    have hrest : opened.rest = x :: (more ++ afterName.rest) := by
      rw [hpassesName.rest, hrun, List.cons_append]
    exact Scans.of_markup (passes_of_char? hopening)
      (by rwa [List.nil_append, hrest]) (by rwa [List.nil_append, hrest]) rfl
  exact (hopened.trans (scans_of_readQName .content hname)).trans
    (scans_of_readAttributes hattributes)

theorem scans_of_readEndTag {piece : Piece}
    (hread : readEndTag c = some (piece, d)) : Scans .content c .content d := by
  simp only [readEndTag, Option.bind_eq_bind, Option.bind_eq_some_iff,
    Prod.exists] at hread
  obtain ⟨opened, hopening, name, afterName, hname, after, hclose, ⟨⟩⟩ := hread
  have hopened : Scans .content c .content opened :=
    Scans.of_markup (Cursor.passes_of_expect? hopening) rfl rfl rfl
  exact ((hopened.trans (scans_of_readQName .content hname)).trans
    (scans_skipSpaces .content afterName)).trans (scans_of_char? rfl hclose)

theorem scans_of_readText {piece : Piece}
    (hread : readText c = some (piece, d)) : Scans .content c .content d := by
  unfold readText at hread
  dsimp only at hread
  split at hread
  · cases hread
    exact Scans.of_passes (c.passes_skip _) fun x hx => Cursor.of_mem_run hx
  · contradiction

theorem scans_of_readPiece {piece : Piece}
    (hread : readPiece c = some (piece, d)) : Scans .content c .content d := by
  rcases readPiece_cases hread with
    ⟨_, hskip | hskip | hskip⟩ | ⟨_, hend, _⟩ | ⟨tag, htag, _⟩ | ⟨_, htext, _⟩
  · exact scans_of_skipComment .content hskip
  · exact scans_of_skipLiteral hskip
  · exact scans_of_skipInstruction (Or.inl rfl) hskip
  · exact scans_of_readEndTag hend
  · exact scans_of_readStartTag htag
  · exact scans_of_readText htext

theorem scans_of_readPieces {fuel depth : Nat} {pieces : List Piece}
    (hread : readPieces fuel depth c = some (pieces, d)) :
    Scans .content c .content d := by
  induction fuel generalizing depth c pieces with
  | zero => contradiction
  | succ fuel ih =>
      unfold readPieces at hread
      split at hread
      · cases hread
        exact Scans.refl .content d
      · simp only [Option.bind_eq_bind, Option.bind_eq_some_iff, Prod.exists]
          at hread
        obtain ⟨piece, afterPiece, hpiece, others, after, hothers, ⟨⟩⟩ := hread
        exact (scans_of_readPiece hpiece).trans (ih hothers)

theorem scans_of_readElement {pieces : List Piece}
    (hread : readElement c = some (pieces, d)) :
    Scans .content c .content d := by
  simp only [readElement, Option.bind_eq_bind, Option.bind_eq_some_iff,
    Prod.exists] at hread
  obtain ⟨tag, afterTag, htag, others, after, hothers, ⟨⟩⟩ := hread
  exact (scans_of_readStartTag htag).trans (scans_of_readPieces hothers)

end Content

end WebConfigAudit.Xml
