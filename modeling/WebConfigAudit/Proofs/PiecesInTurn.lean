import WebConfigAudit.Proofs.DocumentPassage
import WebConfigAudit.Proofs.TokenRanges
/-!
The pieces of a text, one after the other.  A tag takes a stretch of text with
an opening bracket at its front and no other in it, and what comes after a piece
stands behind it.
-/

namespace WebConfigAudit

open Text (Cursor Position)

namespace Text.Cursor

variable {c d e : Cursor} {text : List Char}

theorem Passes.before (hpasses : c.Passes text d) (hne : text ≠ []) :
    c.pos.Before d.pos := by
  rw [hpasses.pos]
  exact c.pos.before_advance hne

theorem Reaches.before {p : Position} (hcd : c.Reaches d)
    (hp : p.Before c.pos) : p.Before d.pos := by
  obtain ⟨text, hpasses⟩ := hcd
  rcases eq_or_ne text [] with rfl | hne
  · rwa [hpasses.pos]
  · exact hp.trans (hpasses.before hne)

/-- The second cursor is reached from the first without an opening bracket on
the way. -/
def StaysInTag (c d : Cursor) : Prop :=
  ∃ text, c.Passes text d ∧ '<' ∉ text

theorem StaysInTag.refl (c : Cursor) : c.StaysInTag c :=
  ⟨[], Passes.refl c, List.not_mem_nil⟩

theorem StaysInTag.trans (hcd : c.StaysInTag d) (hde : d.StaysInTag e) :
    c.StaysInTag e := by
  obtain ⟨s, hs, hsplain⟩ := hcd
  obtain ⟨t, ht, htplain⟩ := hde
  exact ⟨s ++ t, hs.trans ht, List.not_mem_append hsplain htplain⟩

theorem staysInTag_skip {p : Char → Bool} (hp : p '<' = false) (c : Cursor) :
    c.StaysInTag (c.skip p) := by
  refine ⟨c.run p, c.passes_skip p, fun hmem => ?_⟩
  rw [of_mem_run hmem] at hp
  contradiction

/-- The text stands in that of the cursor, between two places. -/
def Holds (c : Cursor) (start : Position) (text : List Char) (stop : Position) :
    Prop :=
  ∃ before after, c.rest = before ++ text ++ after ∧
    start = c.pos.advance before ∧
    stop = start.advance text

theorem Contains.holds (hcd : c.Contains d) (hpasses : d.Passes text e) :
    c.Holds d.pos text e.pos := by
  obtain ⟨before, after, hrest, hpos⟩ := hcd
  refine ⟨before, e.rest ++ after, ?_, hpos, hpasses.pos⟩
  rw [hrest, hpasses.rest]
  simp

theorem Holds.closes {p q : Position} (hholds : c.Holds p (text ++ ['>']) q) :
    ∃ before after, c.rest = before ++ '>' :: after ∧
      q = c.pos.advance (before ++ ['>']) := by
  obtain ⟨before, after, hrest, rfl, rfl⟩ := hholds
  refine ⟨before ++ text, after, by simp [hrest], ?_⟩
  simp only [Position.advance_append]

/-- Where a stretch with an opening bracket at its front only stands, compared
with another bracket: the bracket is the one at its front, or comes before the
stretch or after it. -/
theorem bracket_cases {before after before' after' : List Char}
    (hplain : '<' ∉ text)
    (hsame : before ++ '<' :: text ++ after = before' ++ '<' :: after') :
    before = before' ∨ before'.length < before.length ∨
      before ++ '<' :: text <+: before' := by
  rcases List.append_eq_append_iff.mp hsame with
    ⟨more, rfl, _⟩ | ⟨more, hfront, hmore⟩
  · exact Or.inr (Or.inr (List.prefix_append _ _))
  · cases more with
    | nil =>
        exact Or.inr
          (Or.inr (hfront.trans (List.append_nil before') ▸ List.prefix_rfl))
    | cons x more =>
        obtain ⟨rfl, _⟩ := List.cons.inj hmore
        rcases List.append_eq_append_iff.mp hfront with
          ⟨middle, rfl, htext⟩ | ⟨middle, rfl, _⟩
        · cases middle with
          | nil => exact Or.inl (List.append_nil _).symm
          | cons y middle =>
              obtain ⟨rfl, rfl⟩ := List.cons.inj htext
              simp at hplain
        · cases middle with
          | nil => exact Or.inl (List.append_nil _)
          | cons y middle => exact Or.inr (Or.inl (by simp))

/-- Of two stretches with an opening bracket at the front only, one ends before
the other begins, unless they begin together. -/
theorem Holds.disjoint {p q p' q' : Position} {text' : List Char}
    (hfirst : c.Holds p ('<' :: text) q) (hplain : '<' ∉ text)
    (hother : c.Holds p' ('<' :: text') q') (hplain' : '<' ∉ text') :
    (∃ after after', text ++ after = text' ++ after') ∨ ¬ p'.Before q ∨
      ¬ p.Before q' := by
  obtain ⟨before, after, hrest, rfl, rfl⟩ := hfirst
  obtain ⟨before', after', hrest', rfl, rfl⟩ := hother
  have hsame := hrest.symm.trans hrest'
  have hfront := bracket_cases hplain (hsame.trans (List.append_assoc _ _ _))
  have hfront' :=
    bracket_cases hplain' (hsame.symm.trans (List.append_assoc _ _ _))
  have hbehind {front text back : List Char}
        (hstarts : front ++ text <+: back) :
      ¬ (c.pos.advance back).Before ((c.pos.advance front).advance text) := by
    obtain ⟨more, rfl⟩ := hstarts
    rw [← Position.advance_append, Position.advance_append _ (front ++ text)]
    exact Position.not_advance_before _ more
  rcases hfront with rfl | hshorter | hstarts
  · rw [List.append_assoc, List.append_assoc, List.append_cancel_left_eq]
      at hsame
    exact Or.inl ⟨after, after', by simpa using hsame⟩
  · rcases hfront' with rfl | hshorter' | hstarts'
    · exact absurd hshorter (Nat.lt_irrefl _)
    · exact absurd hshorter (Nat.lt_asymm hshorter')
    · exact Or.inr (Or.inr (hbehind hstarts'))
  · exact Or.inr (Or.inl (hbehind hstarts))

end Text.Cursor

namespace Xml

variable {c d e : Cursor}

section Tags

theorem staysInTag_skipSpaces (c : Cursor) : c.StaysInTag (skipSpaces c) :=
  Cursor.staysInTag_skip (by decide) c

theorem staysInTag_of_char? {x : Char} (hx : '<' ≠ x)
    (hread : char? x c = some d) : c.StaysInTag d :=
  ⟨[x], passes_of_char? hread, mt List.mem_singleton.mp hx⟩

theorem staysInTag_of_spaces? (hread : spaces? c = some d) :
    c.StaysInTag d := by
  obtain ⟨blanks, hpasses, _, hblank⟩ := passes_of_spaces? hread
  exact ⟨blanks, hpasses, fun hmem => absurd (hblank '<' hmem) (by decide)⟩

theorem staysInTag_of_readQName {name : QName}
    (hread : readQName c = some (name, d)) : c.StaysInTag d :=
  ⟨c.run isNameChar, (passes_of_readQName hread).1,
    fun hmem => absurd (Cursor.of_mem_run hmem) (by decide)⟩

/-- No value holds an opening bracket. -/
theorem staysInTag_of_readValue {value : Cursor}
    (hread : readValue c = some (value, d)) : c.StaysInTag d := by
  simp only [readValue, Option.bind_eq_bind, Option.bind_eq_some_iff,
    Prod.exists] at hread
  obtain ⟨mark, inside, hmark, hread⟩ := hread
  split at hread
  · obtain ⟨after, hclose, ⟨⟩⟩ := Option.bind_eq_some_iff.mp hread
    obtain ⟨hopen, hquotes⟩ := passes_of_readQuoteMark hmark
    have hother : '<' ≠ mark := by
      rcases hquotes with rfl | rfl <;> decide
    have hopened : c.StaysInTag inside :=
      ⟨[mark], hopen, mt List.mem_singleton.mp hother⟩
    exact (hopened.trans (Cursor.staysInTag_skip (by simp) inside)).trans
      (staysInTag_of_char? hother hclose)
  · contradiction

theorem staysInTag_of_readAttribute {a : Attribute}
    (hread : readAttribute c = some (a, d)) : c.StaysInTag d := by
  simp only [readAttribute, Option.bind_eq_bind, Option.bind_eq_some_iff,
    Prod.exists] at hread
  obtain ⟨name, afterName, hname, afterEquals, hequals, value, after, hvalue,
      ⟨⟩⟩ := hread
  have hnamed :=
    (staysInTag_of_readQName hname).trans (staysInTag_skipSpaces afterName)
  have hequated := hnamed.trans (staysInTag_of_char? (by decide) hequals)
  exact (hequated.trans (staysInTag_skipSpaces afterEquals)).trans
    (staysInTag_of_readValue hvalue)

theorem staysInTag_of_readAttributes {fuel : Nat}
    {read : List Attribute × TagEnd}
    (hread : readAttributes fuel c = some (read, d)) : c.StaysInTag d := by
  have hending {c : Cursor} {ending : List Char} (hending : '<' ∉ ending)
      (hpasses : c.Passes (c.run isSpace ++ ending) d) : c.StaysInTag d := by
    refine ⟨_, hpasses, List.not_mem_append (fun hmem => ?_) hending⟩
    exact absurd (Cursor.of_mem_run hmem) (by decide)
  induction fuel generalizing c read with
  | zero => contradiction
  | succ fuel ih =>
      rcases readAttributes_cases hread with
        ⟨_, rfl, _⟩ | ⟨_, hpasses⟩ | ⟨_, hpasses⟩ |
          ⟨after, first, afterFirst, others, hafter, hfirst, hothers⟩
      · exact Cursor.StaysInTag.refl d
      · exact hending (by decide) hpasses
      · exact hending (by decide) hpasses
      · exact ((staysInTag_of_spaces? hafter).trans
          (staysInTag_of_readAttribute hfirst)).trans
          (ih hothers)

/-- A text that ends within the attributes of a tag ends there. -/
theorem rest_eq_nil_of_cutOff {fuel : Nat} {attributes : List Attribute}
    (hread : readAttributes fuel c = some ((attributes, .cutOff), d)) :
    d.rest = [] := by
  induction fuel generalizing c attributes with
  | zero => contradiction
  | succ fuel ih =>
      rcases readAttributes_cases hread with
        ⟨_, rfl, hrest⟩ | ⟨hending, _⟩ | ⟨hending, _⟩ |
          ⟨after, first, afterFirst, others, _, _, hothers⟩
      · exact hrest
      · contradiction
      · contradiction
      · exact ih hothers

end Tags

/-- The text between the cursors is that of a start tag, with an opening bracket
at its front and no other in it. -/
def IsTagBetween (c d : Cursor) (written : WrittenTag) : Prop :=
  c.Passes written.chars d ∧ '<' ∉ written.name ++ written.afterName

theorem exists_isTagBetween {tag : StartTag}
    (hread : readStartTag c = some (tag, d)) (hending : tag.ending ≠ .cutOff) :
    ∃ written, IsTagBetween c d written := by
  obtain ⟨written, hpasses, _⟩ := exists_written_of_readStartTag hread hending
  obtain ⟨_, _, afterOpening, afterName, fuel, hopening, hname, hattributes⟩ :=
    readStartTag_cases hread
  obtain ⟨text, htext, hplain⟩ :=
    (staysInTag_of_readQName hname).trans
      (staysInTag_of_readAttributes hattributes)
  refine ⟨written, hpasses, ?_⟩
  -- the two accounts of the tag are about the same text
  have hsame : written.chars ++ d.rest = '<' :: text ++ d.rest :=
    hpasses.rest.symm.trans ((passes_of_char? hopening).trans htext).rest
  rw [List.append_cancel_right_eq, WrittenTag.chars, List.cons_append,
    List.cons.injEq] at hsame
  rw [hsame.2]
  exact hplain

/-- What a piece says of the stretch of text that it was read from. -/
def Piece.Takes (c d : Cursor) : Piece → Prop
  | .tag t =>
      t.start = c ∧ t.stop = d.pos ∧ (t.ending = .cutOff → d.rest = []) ∧
      (t.ending ≠ .cutOff → ∃ written, IsTagBetween c d written)
  | .endTag _ stop =>
      stop = d.pos ∧ ∃ inside, c.Passes ('<' :: '/' :: inside ++ ['>']) d ∧
      '<' ∉ inside
  | _ => True

theorem Piece.Takes.before_of_tag {tag : StartTag}
    (htakes : (Piece.tag tag).Takes c d) (hending : tag.ending ≠ .cutOff) :
    tag.start.pos.Before d.pos := by
  obtain ⟨rfl, _, _, htag⟩ := htakes
  obtain ⟨written, hpasses, _⟩ := htag hending
  exact hpasses.before (List.cons_ne_nil _ _)

theorem takes_of_readStartTag {tag : StartTag}
    (hread : readStartTag c = some (tag, d)) : (Piece.tag tag).Takes c d := by
  obtain ⟨hstart, hstop, _, _, _, _, _, hattributes⟩ := readStartTag_cases hread
  refine ⟨hstart, hstop, fun hending => ?_, exists_isTagBetween hread⟩
  rw [hending] at hattributes
  exact rest_eq_nil_of_cutOff hattributes

theorem takes_of_readEndTag {piece : Piece}
    (hread : readEndTag c = some (piece, d)) : piece.Takes c d := by
  simp only [readEndTag, Option.bind_eq_bind, Option.bind_eq_some_iff,
    Prod.exists] at hread
  obtain ⟨afterOpening, hopening, name, afterName, hname, after, hclose, ⟨⟩⟩ :=
    hread
  obtain ⟨inside, hinside, hplain⟩ :=
    (staysInTag_of_readQName hname).trans (staysInTag_skipSpaces afterName)
  have hopened := (Cursor.passes_of_expect? hopening).trans hinside
  exact ⟨rfl, inside, hopened.trans (passes_of_char? hclose), hplain⟩

theorem takes_of_readPiece {piece : Piece}
    (hread : readPiece c = some (piece, d)) : piece.Takes c d := by
  rcases readPiece_cases hread with
    ⟨rfl, _⟩ | ⟨_, hend, _⟩ | ⟨tag, htag, rfl⟩ | ⟨_, _, rfl⟩
  · trivial
  · exact takes_of_readEndTag hend
  · exact takes_of_readStartTag htag
  · trivial

/-- Pieces that were read one after the other, each where the one before it
ended. -/
inductive ReadInTurn : Cursor → List Piece → Cursor → Prop where
  | nil (c : Cursor) : ReadInTurn c [] c
  | cons {c e d : Cursor} {piece : Piece} {pieces : List Piece}
      (hne : c.rest ≠ []) (hreaches : c.Reaches e) (htakes : piece.Takes c e)
      (hrest : ReadInTurn e pieces d) :
      ReadInTurn c (piece :: pieces) d

section Reading

variable {pieces : List Piece}

theorem readInTurn_of_readPieces {fuel depth : Nat}
    (hread : readPieces fuel depth c = some (pieces, d)) :
    ReadInTurn c pieces d := by
  induction fuel generalizing depth c pieces with
  | zero => contradiction
  | succ fuel ih =>
      unfold readPieces at hread
      split at hread
      · cases hread
        exact ReadInTurn.nil d
      · next hmore =>
          simp only [Option.bind_eq_bind, Option.bind_eq_some_iff, Prod.exists]
            at hread
          obtain ⟨piece, afterPiece, hpiece, others, after, hothers, ⟨⟩⟩ :=
            hread
          rw [not_or, List.isEmpty_iff] at hmore
          exact ReadInTurn.cons hmore.2 (of_readPiece hpiece).1
            (takes_of_readPiece hpiece) (ih hothers)

theorem readInTurn_of_readElement (hread : readElement c = some (pieces, d)) :
    ReadInTurn c pieces d := by
  simp only [readElement, Option.bind_eq_bind, Option.bind_eq_some_iff,
    Prod.exists] at hread
  obtain ⟨tag, afterTag, htag, others, after, hothers, ⟨⟩⟩ := hread
  obtain ⟨_, _, afterOpening, _, _, hopening, _⟩ := readStartTag_cases htag
  have hne : c.rest ≠ [] := by
    rw [(passes_of_char? hopening).rest]
    exact List.cons_ne_nil _ _
  exact ReadInTurn.cons hne (of_readStartTag htag).1
    (takes_of_readStartTag htag) (readInTurn_of_readPieces hothers)

theorem exists_readInTurn_of_readContent (hread : readContent c = some pieces) :
    ∃ d, ReadInTurn c pieces d := by
  obtain ⟨⟨read, after⟩, hpieces, rfl⟩ := Option.map_eq_some_iff.mp hread
  exact ⟨after, readInTurn_of_readPieces hpieces⟩

theorem ReadInTurn.exists_takes (hread : ReadInTurn c pieces d) {piece : Piece}
    (hpiece : piece ∈ pieces) :
    ∃ start stop, c.Reaches start ∧ piece.Takes start stop := by
  induction hread with
  | nil c => contradiction
  | cons _ hreaches htakes _ ih =>
      rcases List.mem_cons.mp hpiece with rfl | hlater
      · exact ⟨_, _, Cursor.Reaches.refl _, htakes⟩
      · obtain ⟨start, stop, hstart, hstop⟩ := ih hlater
        exact ⟨start, stop, hreaches.trans hstart, hstop⟩

end Reading

end Xml

end WebConfigAudit
