import WebConfigAudit.Proofs.Passage
import WebConfigAudit.Source.StartTag
/-!
Start tags as people write them, with their blanks and quotes, and the scanner's
tokens of them.
-/

namespace WebConfigAudit

open Text (Cursor Position)

/-- An attribute as it is written, with the blanks before its name and around
its equals sign. -/
structure WrittenAttribute where
  gap : List Char
  name : List Char
  beforeEquals : List Char
  afterEquals : List Char
  mark : Char
  value : List Char
  gap_ne_nil : gap ≠ []
  gap_blank : ∀ c ∈ gap, isTagBlank c = true
  name_ne_nil : name ≠ []
  name_plain : ∀ c ∈ name, isTagDelimiter c = false
  beforeEquals_blank : ∀ c ∈ beforeEquals, isTagBlank c = true
  afterEquals_blank : ∀ c ∈ afterEquals, isTagBlank c = true
  mark_quotes : mark = '"' ∨ mark = '\''
  mark_not_mem : mark ∉ value

/-- A start tag as it is written.  It is empty if it ends in a slash. -/
structure WrittenTag where
  name : List Char
  attributes : List WrittenAttribute
  gap : List Char
  isEmpty : Bool
  name_ne_nil : name ≠ []
  name_plain : ∀ c ∈ name, isTagDelimiter c = false
  gap_blank : ∀ c ∈ gap, isTagBlank c = true

/-- The token of a text that stands at a place. -/
def RawToken.placed (pos : Position) (text : List Char) : RawToken :=
  ⟨text, ⟨pos, pos.advance text⟩⟩

namespace WrittenAttribute

variable (a : WrittenAttribute)

/-- The value between its quotes. -/
def quoted : List Char :=
  a.mark :: a.value ++ [a.mark]

/-- What comes before the value, from the gap to the blanks after the equals
sign. -/
def beforeValue : List Char :=
  a.gap ++ a.name ++ a.beforeEquals ++ '=' :: a.afterEquals

/-- The characters of the attribute. -/
def chars : List Char :=
  a.beforeValue ++ a.quoted

/-- The tokens of the attribute, if its gap begins at the given place. -/
def tokensAt (pos : Position) : RawAttribute :=
  ⟨.placed (pos.advance a.gap) a.name,
    .placed (pos.advance a.beforeValue) a.quoted⟩

/-- The tokens of attributes in a row. -/
def allTokensAt (pos : Position) : List WrittenAttribute → List RawAttribute
  | [] => []
  | a :: rest => a.tokensAt pos :: allTokensAt (pos.advance a.chars) rest

end WrittenAttribute

namespace WrittenTag

variable (tag : WrittenTag)

/-- What ends the tag. -/
def ending : List Char :=
  if tag.isEmpty then ['/', '>'] else ['>']

/-- What comes after the name. -/
def afterName : List Char :=
  tag.attributes.flatMap WrittenAttribute.chars ++ tag.gap ++ tag.ending

/-- The characters of the tag. -/
def chars : List Char :=
  '<' :: tag.name ++ tag.afterName

/-- The tokens of the tag, if it begins at the given place. -/
def tokensAt (pos : Position) : RawStartTag :=
  ⟨.placed (pos.after '<') tag.name,
   WrittenAttribute.allTokensAt (pos.advance ('<' :: tag.name)) tag.attributes⟩

end WrittenTag

theorem isTagDelimiter_of_isTagBlank {c : Char} (hblank : isTagBlank c = true) :
    isTagDelimiter c = true := by
  simp [isTagDelimiter, hblank]

theorem isTagBlank_of_not_isTagDelimiter {c : Char}
    (hplain : isTagDelimiter c = false) : isTagBlank c = false := by
  rw [Bool.eq_false_iff] at hplain ⊢
  exact fun hblank => hplain (isTagDelimiter_of_isTagBlank hblank)

theorem scanName_append {name rest : List Char} (pos : Position)
    (hplain : ∀ c ∈ name, isTagDelimiter c = false)
    (hstop : ∀ c ∈ rest.head?, isTagDelimiter c = true) :
    scanName ⟨name ++ rest, pos⟩ =
      (.placed pos name, ⟨rest, pos.advance name⟩) := by
  have hrun : ∀ c ∈ name, (!isTagDelimiter c) = true := fun c hc => by
    simp [hplain c hc]
  have hend : ∀ c ∈ rest.head?, (!isTagDelimiter c) = false := fun c hc => by
    simp [hstop c hc]
  simp only [scanName, Cursor.run_append rest pos hrun hend,
    Cursor.skip_append rest pos hrun hend, RawToken.placed]

/-- Blanks are delimiters, so a name before them ends there. -/
theorem isTagDelimiter_head {gap : List Char} {x : Char} (rest : List Char)
    (hgap : ∀ c ∈ gap, isTagBlank c = true) (hx : isTagDelimiter x = true) :
    ∀ c ∈ (gap ++ x :: rest).head?, isTagDelimiter c = true := by
  intro c hc
  cases gap with
  | nil =>
      cases hc
      exact hx
  | cons blank gap =>
      cases hc
      exact isTagDelimiter_of_isTagBlank (hgap c List.mem_cons_self)

/-- Unless the tag ends, the scanner takes an attribute and goes on after it. -/
theorem scanAttributes_of_not_end {c d : Cursor} {x : Char} {rest : List Char}
    (hskip : c.skip isTagBlank = d) (hrest : d.rest = x :: rest)
    (hgoes : ¬ (x = '>' ∨ x = '/')) (fuel : Nat) :
    scanAttributes (fuel + 1) c = do
      let (first, after) ← scanAttribute d
      let others ← scanAttributes fuel after
      return first :: others := by
  rw [not_or] at hgoes
  rw [scanAttributes, hskip]
  dsimp only
  rw [hrest]
  split
  · contradiction
  · next hgreater =>
      cases hgreater
      exact absurd rfl hgoes.1
  · next hslash =>
      cases hslash
      exact absurd rfl hgoes.2
  · rfl

theorem not_end_of_not_isTagDelimiter {x : Char}
    (hplain : isTagDelimiter x = false) : ¬ (x = '>' ∨ x = '/') := by
  rintro (rfl | rfl)
  · exact absurd hplain (by decide)
  · exact absurd hplain (by decide)

namespace WrittenAttribute

variable {a : WrittenAttribute} {rest : List Char} {pos : Position}

theorem mark_not_blank (a : WrittenAttribute) : isTagBlank a.mark = false := by
  rcases a.mark_quotes with hmark | hmark <;> rw [hmark] <;> decide

theorem scanValue_append :
    scanValue ⟨a.quoted ++ rest, pos⟩ =
      .ok (.placed pos a.quoted, ⟨rest, pos.advance a.quoted⟩) := by
  have hinside : ∀ c ∈ a.value, (decide (c ≠ a.mark)) = true := fun c hc => by
    rw [decide_eq_true_eq]
    rintro rfl
    exact a.mark_not_mem hc
  have hclose : ∀ c ∈ (a.mark :: rest).head?, (decide (c ≠ a.mark)) =
      false := by simp
  have hshape : a.quoted ++ rest = a.mark :: (a.value ++ a.mark :: rest) := by
    simp [quoted]
  simp only [hshape, scanValue, if_pos a.mark_quotes, Cursor.next_cons,
    Cursor.run_append _ _ hinside hclose, Cursor.skip_append _ _ hinside hclose]
  simp [RawToken.placed, quoted]

/-- What is left of an attribute when its gap is passed. -/
def fromName (a : WrittenAttribute) : List Char :=
  a.name ++ a.beforeEquals ++ '=' :: a.afterEquals ++ a.quoted

theorem chars_eq (a : WrittenAttribute) : a.chars = a.gap ++ a.fromName := by
  simp [chars, beforeValue, fromName]

theorem scanAttribute_append :
    scanAttribute ⟨a.fromName ++ rest, pos.advance a.gap⟩ =
      .ok (a.tokensAt pos, ⟨rest, pos.advance a.chars⟩) := by
  have hshape : a.fromName ++ rest =
      a.name ++ (a.beforeEquals ++ '=' ::
        (a.afterEquals ++ (a.quoted ++ rest))) := by
    simp [fromName]
  have hname := scanName_append (pos.advance a.gap) a.name_plain
    (isTagDelimiter_head (a.afterEquals ++ (a.quoted ++ rest))
      a.beforeEquals_blank (by decide : isTagDelimiter '=' = true))
  have hequals :=
    Cursor.skip_append ('=' :: (a.afterEquals ++ (a.quoted ++ rest)))
      ((pos.advance a.gap).advance a.name) a.beforeEquals_blank
      (by simp; decide)
  have hvalue := Cursor.skip_append (a.quoted ++ rest)
    ((((pos.advance a.gap).advance a.name).advance a.beforeEquals).after '=')
    a.afterEquals_blank (by simp [quoted, a.mark_not_blank])
  have hnamed : (RawToken.placed (pos.advance a.gap) a.name).text.isEmpty =
      false := by
    simp [RawToken.placed, a.name_ne_nil]
  simp only [hshape, scanAttribute, hname, hequals, hnamed,
    Bool.false_eq_true, if_false, Cursor.next_cons, hvalue, scanValue_append]
  simp [bind, Except.bind, pure, Except.pure, tokensAt, chars, beforeValue]

theorem exists_fromName_eq_cons (a : WrittenAttribute) :
    ∃ x tail, a.fromName = x :: tail ∧ isTagDelimiter x = false := by
  cases hname : a.name with
  | nil => exact absurd hname a.name_ne_nil
  | cons x name =>
      exact ⟨x, _, by rw [fromName, hname]; rfl,
        a.name_plain x (by simp [hname])⟩

/-- The attributes of a tag are taken apart in turn, whatever comes after the
end of the tag. -/
theorem scanAttributes_append {attributes : List WrittenAttribute}
    {gap : List Char} {x : Char} {fuel : Nat} (rest : List Char)
    (pos : Position) (hgap : ∀ c ∈ gap, isTagBlank c = true)
    (hend : x = '/' ∨ x = '>') (hfuel : attributes.length < fuel) :
    scanAttributes fuel ⟨attributes.flatMap chars ++ (gap ++ x :: rest), pos⟩ =
      .ok (allTokensAt pos attributes) := by
  -- one unit of fuel goes with each attribute, and one with the look at the end
  -- of the tag
  induction attributes generalizing fuel pos with
  | nil =>
      obtain ⟨fuel, rfl⟩ := Nat.exists_eq_add_of_lt hfuel
      have hstop : ∀ c ∈ (x :: rest).head?, isTagBlank c = false := by
        rcases hend with rfl | rfl <;> simp <;> decide
      simp only [List.flatMap_nil, List.nil_append, scanAttributes,
        Cursor.skip_append _ _ hgap hstop]
      rcases hend with rfl | rfl <;> rfl
  | cons a others ih =>
      obtain ⟨fuel, rfl⟩ := Nat.exists_eq_add_of_lt hfuel
      obtain ⟨y, tail, hname, hplain⟩ := a.exists_fromName_eq_cons
      have hshape : (a :: others).flatMap chars ++ (gap ++ x :: rest) =
          a.gap ++ (a.fromName ++
            (others.flatMap chars ++ (gap ++ x :: rest))) := by
        simp [chars_eq]
      have hskip := Cursor.skip_append
        (a.fromName ++ (others.flatMap chars ++ (gap ++ x :: rest))) pos
        a.gap_blank
        (by simpa [hname] using isTagBlank_of_not_isTagDelimiter hplain)
      rw [hshape, scanAttributes_of_not_end hskip (by rw [hname]; rfl)
        (not_end_of_not_isTagDelimiter hplain), scanAttribute_append]
      simp only [bind, Except.bind, pure, Except.pure]
      rw [ih _ (by simp; omega)]
      rfl

theorem length_le_length_flatMap_chars (attributes : List WrittenAttribute) :
    attributes.length ≤ (attributes.flatMap chars).length := by
  induction attributes with
  | nil => simp
  | cons a others ih =>
      have hchars : a.chars ≠ [] := by simp [chars, quoted]
      have hlength := List.length_pos_iff.mpr hchars
      rw [List.flatMap_cons, List.length_append, List.length_cons]
      omega

end WrittenAttribute

namespace WrittenTag

theorem exists_ending_eq_cons (tag : WrittenTag) :
    ∃ x rest, tag.ending = x :: rest ∧ (x = '/' ∨ x = '>') := by
  unfold ending
  cases tag.isEmpty with
  | true => exact ⟨'/', ['>'], rfl, Or.inl rfl⟩
  | false => exact ⟨'>', [], rfl, Or.inr rfl⟩

theorem afterName_head (tag : WrittenTag) (after : List Char) :
    ∀ c ∈ (tag.afterName ++ after).head?, isTagDelimiter c = true := by
  obtain ⟨x, rest, hending, hend⟩ := tag.exists_ending_eq_cons
  have hx : isTagDelimiter x = true := by
    rcases hend with rfl | rfl <;> decide
  cases hattributes : tag.attributes with
  | nil =>
      have hshape : tag.afterName ++ after =
          tag.gap ++ x :: (rest ++ after) := by
        simp [afterName, hattributes, hending]
      rw [hshape]
      exact isTagDelimiter_head _ tag.gap_blank hx
  | cons a others =>
      obtain ⟨blank, gap, hgap⟩ := List.exists_cons_of_ne_nil a.gap_ne_nil
      have hblank : isTagBlank blank = true :=
        a.gap_blank blank (by simp [hgap])
      simp [afterName, hattributes, WrittenAttribute.chars,
        WrittenAttribute.beforeValue, hgap, isTagDelimiter_of_isTagBlank hblank]

end WrittenTag

/-- The scanner takes a written tag apart, whatever comes after it. -/
theorem scanStartTag_append (tag : WrittenTag) (after : List Char)
    (pos : Position) :
    scanStartTag ⟨tag.chars ++ after, pos⟩ = .ok (tag.tokensAt pos) := by
  obtain ⟨x, rest, hending, hend⟩ := tag.exists_ending_eq_cons
  have hafterName : tag.afterName ++ after =
      tag.attributes.flatMap WrittenAttribute.chars ++
        (tag.gap ++ x :: (rest ++ after)) := by
    simp [WrittenTag.afterName, hending]
  have hname : scanName ⟨tag.name ++ (tag.afterName ++ after), pos.after '<'⟩ =
      (.placed (pos.after '<') tag.name,
        ⟨tag.afterName ++ after, (pos.after '<').advance tag.name⟩) :=
    scanName_append _ tag.name_plain (tag.afterName_head after)
  -- the scanner's fuel counts characters, of which every attribute has some
  have hfuel : tag.attributes.length < (tag.afterName ++ after).length + 1 := by
    have hlength :=
      WrittenAttribute.length_le_length_flatMap_chars tag.attributes
    rw [hafterName, List.length_append]
    omega
  have hattributes := WrittenAttribute.scanAttributes_append (rest ++ after)
    ((pos.after '<').advance tag.name) tag.gap_blank hend hfuel
  have hshape :
      tag.chars ++ after = '<' :: (tag.name ++ (tag.afterName ++ after)) := by
    simp [WrittenTag.chars]
  rw [hshape, scanStartTag]
  simp only [Cursor.next_cons, hname]
  rw [← hafterName] at hattributes
  rw [hattributes]
  rfl

end WebConfigAudit
