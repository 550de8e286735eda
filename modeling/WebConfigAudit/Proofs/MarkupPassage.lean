import WebConfigAudit.Proofs.TextSearch
import WebConfigAudit.Proofs.WrittenTag
import WebConfigAudit.Xml.Markup
/-!
What the readers of markup pass over.  They only go forward, and what a reader
of start tags passes over is a start tag as people write them.
-/

namespace WebConfigAudit.Xml

open Text (Cursor Position)

variable {c d : Cursor}

theorem reaches_skipSpaces (c : Cursor) : c.Reaches (skipSpaces c) :=
  c.reaches_skip isSpace

theorem passes_of_spaces? (hread : spaces? c = some d) :
    ∃ blanks, c.Passes blanks d ∧ blanks ≠ [] ∧ ∀ x ∈ blanks,
      isSpace x = true := by
  unfold spaces? at hread
  split at hread
  · contradiction
  · next x rest hrest =>
      split at hread
      · next hspace =>
          cases hread
          refine ⟨c.run isSpace, Cursor.passes_skip isSpace c, ?_, ?_⟩
          · simp [Cursor.run, hrest, hspace]
          · exact fun y hy => Cursor.of_mem_run hy
      · contradiction

theorem passes_of_char? {x : Char} (hread : char? x c = some d) :
    c.Passes [x] d := by
  unfold char? at hread
  split at hread
  · contradiction
  · next y rest hrest =>
      split at hread
      · next hsame =>
          cases hread
          rw [← hsame]
          exact Cursor.passes_next hrest
      · contradiction

theorem passes_of_readName {name : List Char}
    (hread : readName c = some (name, d)) :
    c.Passes name d ∧ ∀ x ∈ name, isNameChar x = true := by
  unfold readName at hread
  split at hread
  · contradiction
  · split at hread
    · cases hread
      exact ⟨c.passes_skip isNameChar, fun _ hx => Cursor.of_mem_run hx⟩
    · contradiction

theorem reaches_of_readName {name : List Char}
    (hread : readName c = some (name, d)) : c.Reaches d :=
  (passes_of_readName hread).1.reaches

theorem passes_of_readQName {name : QName}
    (hread : readQName c = some (name, d)) :
    c.Passes (c.run isNameChar) d ∧ QName.ofChars? (c.run isNameChar) =
      some name := by
  rw [readQName, Option.map_eq_some_iff] at hread
  obtain ⟨read, hname, ⟨⟩⟩ := hread
  exact ⟨Cursor.passes_skip isNameChar c, hname⟩

theorem passes_of_readQuoteMark {mark : Char}
    (hread : readQuoteMark c = some (mark, d)) :
    c.Passes [mark] d ∧ (mark = '"' ∨ mark = '\'') := by
  unfold readQuoteMark at hread
  split at hread
  · contradiction
  · next x rest hrest =>
      split at hread
      · next hquotes =>
          cases hread
          exact ⟨Cursor.passes_next hrest, hquotes⟩
      · contradiction

theorem of_readQuoted {value : Cursor}
    (hread : readQuoted c = some (value, d)) :
    c.Reaches d ∧ c.Contains value := by
  simp only [readQuoted, Option.bind_eq_bind, Option.bind_eq_some_iff,
    Prod.exists] at hread
  obtain ⟨mark, inside, hmark, after, hclose, ⟨⟩⟩ := hread
  have hinside : c.Reaches inside := (passes_of_readQuoteMark hmark).1.reaches
  constructor
  · exact (hinside.trans (inside.reaches_skip _)).trans
      (passes_of_char? hclose).reaches
  · exact hinside.contains.trans (inside.contains_run _)

/-- The text before an ending is passed over together with the ending. -/
theorem passes_of_readUntil {ending text : List Char}
    (hread : readUntil ending c = some (text, d)) :
    Text.before? ending c.rest = some text ∧ c.Passes (text ++ ending) d := by
  simp only [readUntil, Option.bind_eq_bind, Option.bind_eq_some_iff] at hread
  obtain ⟨before, hbefore, hread⟩ := hread
  split at hread
  · cases hread
    refine ⟨hbefore, ?_⟩
    obtain ⟨rest, hrest⟩ := Text.exists_rest_of_before? hbefore
    have hpasses := c.passes_drop (text ++ ending).length
    rwa [hrest, List.take_left, List.length_append] at hpasses
  · contradiction

theorem reaches_of_readUntil {ending text : List Char}
    (hread : readUntil ending c = some (text, d)) : c.Reaches d :=
  (passes_of_readUntil hread).2.reaches

theorem isTagBlank_of_isSpace {x : Char} (hspace : isSpace x = true) :
    isTagBlank x = true := by
  simp only [isSpace, Bool.or_eq_true, beq_iff_eq] at hspace
  rcases hspace with ((rfl | rfl) | rfl) | rfl <;> decide

/-- No name goes past what ends it in a start tag. -/
theorem not_isTagDelimiter_of_isNameChar {x : Char}
    (hname : isNameChar x = true) : isTagDelimiter x = false := by
  rw [Bool.eq_false_iff]
  intro hdelimiter
  simp only [isTagDelimiter, isTagBlank, Bool.or_eq_true, beq_iff_eq]
    at hdelimiter
  rcases hdelimiter with
      (((((((rfl | rfl) | rfl) | rfl) | rfl) | rfl) | rfl) | rfl) <;>
    exact absurd hname (by decide)

theorem QName.ne_nil_of_ofChars? {cs : List Char} {name : QName}
    (hname : QName.ofChars? cs = some name) : cs ≠ [] := by
  rintro rfl
  contradiction

theorem passes_of_readValue {value : Cursor}
    (hread : readValue c = some (value, d)) :
    ∃ mark text, (mark = '"' ∨ mark = '\'') ∧ mark ∉ text ∧
      c.Passes (mark :: text ++ [mark]) d := by
  simp only [readValue, Option.bind_eq_bind, Option.bind_eq_some_iff,
    Prod.exists] at hread
  obtain ⟨mark, inside, hmark, hread⟩ := hread
  split at hread
  · obtain ⟨after, hclose, ⟨⟩⟩ := Option.bind_eq_some_iff.mp hread
    obtain ⟨hopen, hquotes⟩ := passes_of_readQuoteMark hmark
    refine ⟨mark, _, hquotes, ?_, (hopen.trans (inside.passes_skip _)).trans
      (passes_of_char? hclose)⟩
    -- the value is a run of characters other than its mark
    intro hmem
    have hother := Cursor.of_mem_run hmem
    simp at hother
  · contradiction

/-- An attribute that is read is one that people write, whatever gap came before
it. -/
theorem exists_written_of_readAttribute {a : Attribute} {gap : List Char}
    (hne : gap ≠ []) (hgap : ∀ x ∈ gap, isTagBlank x = true)
    (hread : readAttribute c = some (a, d)) :
    ∃ written : WrittenAttribute, written.gap = gap ∧
      c.Passes written.fromName d := by
  simp only [readAttribute, Option.bind_eq_bind, Option.bind_eq_some_iff,
    Prod.exists] at hread
  obtain ⟨name, afterName, hname, afterEquals, hequals, value, after, hvalue,
      ⟨⟩⟩ := hread
  obtain ⟨hpassesName, hofChars⟩ := passes_of_readQName hname
  obtain ⟨mark, text, hquotes, hmark, hpassesValue⟩ :=
    passes_of_readValue hvalue
  have hblanks : ∀ (c : Cursor), ∀ x ∈ c.run isSpace, isTagBlank x = true :=
    fun c x hx => isTagBlank_of_isSpace (Cursor.of_mem_run hx)
  have hplain : ∀ x ∈ c.run isNameChar, isTagDelimiter x = false :=
    fun x hx => not_isTagDelimiter_of_isNameChar (Cursor.of_mem_run hx)
  let written : WrittenAttribute :=
    { gap, name := c.run isNameChar, beforeEquals := afterName.run isSpace
      afterEquals := afterEquals.run isSpace, mark, value := text
      gap_ne_nil := hne, gap_blank := hgap,
      name_ne_nil := QName.ne_nil_of_ofChars? hofChars
      name_plain := hplain, beforeEquals_blank := hblanks afterName
      afterEquals_blank := hblanks afterEquals, mark_quotes := hquotes,
      mark_not_mem := hmark }
  refine ⟨written, rfl, ?_⟩
  have hpasses := (((hpassesName.trans (afterName.passes_skip isSpace)).trans
    (passes_of_char? hequals)).trans (afterEquals.passes_skip isSpace)).trans
      hpassesValue
  simpa [written, WrittenAttribute.fromName, WrittenAttribute.quoted]
    using hpasses

theorem reaches_of_readAttribute {a : Attribute}
    (hread : readAttribute c = some (a, d)) : c.Reaches d := by
  have hblank : ∀ x ∈ [' '], isTagBlank x = true :=
    List.forall_mem_singleton.mpr (by decide)
  obtain ⟨written, _, hpasses⟩ :=
    exists_written_of_readAttribute (List.cons_ne_nil _ _) hblank hread
  exact hpasses.reaches

/-- The three ways in which the attributes of a tag can go on: the text is cut
off, the tag ends, or an attribute comes after a blank. -/
theorem readAttributes_cases {fuel : Nat} {attributes : List Attribute}
    {ending : TagEnd}
    (hread : readAttributes (fuel + 1) c = some ((attributes, ending), d)) :
    (ending = .cutOff ∧ d = c ∧ c.rest = []) ∨
      (ending = .empty ∧ c.Passes (c.run isSpace ++ ['/', '>']) d) ∨
      (ending = .opens ∧ c.Passes (c.run isSpace ++ ['>']) d) ∨
      ∃ after first afterFirst others, spaces? c = some after ∧
        readAttribute after = some (first, afterFirst) ∧
        readAttributes fuel afterFirst = some ((others, ending), d) := by
  have hblanks := c.passes_skip isSpace
  unfold readAttributes at hread
  split at hread
  · next hempty =>
      cases hread
      exact Or.inl ⟨rfl, rfl, List.isEmpty_iff.mp hempty⟩
  · dsimp only at hread
    split at hread
    · contradiction
    · next hslash =>
        obtain ⟨after, hclose, ⟨⟩⟩ := Option.map_eq_some_iff.mp hread
        have hpasses :=
          (hblanks.trans (Cursor.passes_next hslash)).trans
            (passes_of_char? hclose)
        rw [List.append_assoc] at hpasses
        exact Or.inr (Or.inl ⟨rfl, hpasses⟩)
    · next hgreater =>
        cases hread
        exact Or.inr
          (Or.inr (Or.inl ⟨rfl, hblanks.trans (Cursor.passes_next hgreater)⟩))
    · simp only [Option.bind_eq_bind, Option.bind_eq_some_iff, Prod.exists]
        at hread
      obtain ⟨after, hafter, first, afterFirst, hfirst, others, ending', rest,
          hothers, ⟨⟩⟩ := hread
      exact Or.inr
        (Or.inr (Or.inr ⟨after, first, afterFirst, others, hafter, hfirst,
          hothers⟩))

theorem reaches_of_readAttributes {fuel : Nat} {read : List Attribute × TagEnd}
    (hread : readAttributes fuel c = some (read, d)) : c.Reaches d := by
  induction fuel generalizing c read with
  | zero => contradiction
  | succ fuel ih =>
      rcases readAttributes_cases hread with
        ⟨_, rfl, _⟩ | ⟨_, hpasses⟩ | ⟨_, hpasses⟩ |
          ⟨after, first, afterFirst, others, hafter, hfirst, hothers⟩
      · exact Cursor.Reaches.refl d
      · exact hpasses.reaches
      · exact hpasses.reaches
      · obtain ⟨blanks, hblanks, _⟩ := passes_of_spaces? hafter
        exact (hblanks.reaches.trans (reaches_of_readAttribute hfirst)).trans
          (ih hothers)

/-- The attributes of a tag that is not cut off are what comes after the name in
a written tag. -/
theorem exists_written_of_readAttributes {fuel : Nat}
    {attributes : List Attribute} {ending : TagEnd}
    (hread : readAttributes fuel c = some ((attributes, ending), d))
    (hending : ending ≠ .cutOff) {name : List Char} (hne : name ≠ [])
    (hplain : ∀ x ∈ name, isTagDelimiter x = false) :
    ∃ tag : WrittenTag, tag.name = name ∧ c.Passes tag.afterName d := by
  have hgap : ∀ x ∈ c.run isSpace, isTagBlank x = true :=
    fun x hx => isTagBlank_of_isSpace (Cursor.of_mem_run hx)
  induction fuel generalizing c attributes with
  | zero => contradiction
  | succ fuel ih =>
      rcases readAttributes_cases hread with
        ⟨hcut, _⟩ | ⟨_, hpasses⟩ | ⟨_, hpasses⟩ |
          ⟨after, first, afterFirst, others, hafter, hfirst, hothers⟩
      · exact absurd hcut hending
      · exact ⟨⟨name, [], _, true, hne, hplain, hgap⟩, rfl, hpasses⟩
      · exact ⟨⟨name, [], _, false, hne, hplain, hgap⟩, rfl, hpasses⟩
      · obtain ⟨blanks, hblanks, hblanks_ne, hspaces⟩ :=
          passes_of_spaces? hafter
        obtain ⟨written, hgapEq, hwritten⟩ :=
          exists_written_of_readAttribute hblanks_ne
            (fun x hx => isTagBlank_of_isSpace (hspaces x hx)) hfirst
        obtain ⟨tag, hname, htag⟩ := ih hothers
          (fun x hx => isTagBlank_of_isSpace (Cursor.of_mem_run hx))
        -- the tag with the other attributes gets this one in front of them
        refine ⟨{ tag with attributes := written :: tag.attributes }, hname, ?_⟩
        have hshape :
            ({ tag with attributes := written :: tag.attributes } :
              WrittenTag).afterName =
              blanks ++ written.fromName ++ tag.afterName := by
          simp [WrittenTag.afterName, WrittenTag.ending,
            written.chars_eq, hgapEq]
        rw [hshape]
        exact (hblanks.trans hwritten).trans htag

/-- The part of a name after its first colon, or all of it. -/
def localPart (name : List Char) : List Char :=
  match name.dropWhile (· ≠ ':') with
  | [] => name
  | _ :: after => after

theorem localName_of_ofChars? {cs : List Char} {name : QName}
    (hname : QName.ofChars? cs = some name) :
    name.localName = localPart cs := by
  unfold QName.ofChars? at hname
  dsimp only at hname
  cases hcolon : cs.dropWhile (· ≠ ':') with
  | nil =>
      rw [localPart, hcolon]
      rw [hcolon] at hname
      dsimp only at hname
      split at hname
      · cases hname
        rfl
      · contradiction
  | cons colon after =>
      rw [localPart, hcolon]
      rw [hcolon] at hname
      dsimp only at hname
      split at hname
      · cases hname
        rfl
      · contradiction

/-- A tag that is not cut off stands in the text as people write it. -/
def StartTag.IsWritten (tag : StartTag) : Prop :=
  tag.ending ≠ .cutOff → ∃ (written : WrittenTag) (inside : List Char),
    tag.start.rest = written.chars ++ inside ∧
      tag.name.localName = localPart written.name

/-- A start tag is its name and then its attributes with their end. -/
theorem readStartTag_cases {tag : StartTag}
    (hread : readStartTag c = some (tag, d)) :
    tag.start = c ∧ tag.stop = d.pos ∧ ∃ afterOpening afterName fuel,
      char? '<' c = some afterOpening ∧
        readQName afterOpening = some (tag.name, afterName) ∧
        readAttributes fuel afterName =
          some ((tag.attributes, tag.ending), d) := by
  simp only [readStartTag, Option.bind_eq_bind, Option.bind_eq_some_iff,
    Prod.exists] at hread
  obtain ⟨afterOpening, hopening, name, afterName, hname, hread⟩ := hread
  split at hread
  · contradiction
  · simp only [Option.bind_eq_some_iff, Prod.exists] at hread
    obtain ⟨attributes, ending, after, hattributes, ⟨⟩⟩ := hread
    exact ⟨rfl, rfl, afterOpening, afterName, _, hopening, hname, hattributes⟩

theorem exists_written_of_readStartTag {tag : StartTag}
    (hread : readStartTag c = some (tag, d)) (hending : tag.ending ≠ .cutOff) :
    ∃ written : WrittenTag, c.Passes written.chars d ∧
      tag.name.localName = localPart written.name := by
  obtain ⟨_, _, afterOpening, afterName, fuel, hopening, hname, hattributes⟩ :=
    readStartTag_cases hread
  obtain ⟨hpassesName, hofChars⟩ := passes_of_readQName hname
  obtain ⟨written, hwrittenName, hwritten⟩ :=
    exists_written_of_readAttributes hattributes hending
      (QName.ne_nil_of_ofChars? hofChars)
      (fun x hx => not_isTagDelimiter_of_isNameChar (Cursor.of_mem_run hx))
  refine ⟨written, ?_, ?_⟩
  · rw [WrittenTag.chars, hwrittenName]
    exact ((passes_of_char? hopening).trans hpassesName).trans hwritten
  · rw [localName_of_ofChars? hofChars, hwrittenName]

theorem of_readStartTag {tag : StartTag}
    (hread : readStartTag c = some (tag, d)) :
    c.Reaches d ∧ tag.start = c ∧ tag.IsWritten := by
  obtain ⟨rfl, _, afterOpening, afterName, fuel, hopening, hname,
      hattributes⟩ :=
    readStartTag_cases hread
  have hnamed :=
    (passes_of_char? hopening).reaches.trans
      (passes_of_readQName hname).1.reaches
  refine ⟨hnamed.trans (reaches_of_readAttributes hattributes), rfl,
    fun hending => ?_⟩
  obtain ⟨written, hpasses, hlocal⟩ :=
    exists_written_of_readStartTag hread hending
  exact ⟨written, d.rest, hpasses.rest, hlocal⟩

theorem reaches_of_skipComment (hskip : skipComment c = some d) :
    c.Reaches d := by
  simp only [skipComment, Option.bind_eq_bind, Option.bind_eq_some_iff,
    Prod.exists] at hskip
  obtain ⟨afterOpening, hopening, text, after, htext, hskip⟩ := hskip
  split at hskip
  · contradiction
  · cases hskip
    exact (Cursor.passes_of_expect? hopening).reaches.trans
      (reaches_of_readUntil htext)

theorem reaches_of_skipInstruction (hskip : skipInstruction c = some d) :
    c.Reaches d := by
  unfold skipInstruction at hskip
  split at hskip
  · contradiction
  · simp only [Option.bind_eq_bind, Option.bind_eq_some_iff, Prod.exists]
      at hskip
    obtain ⟨afterOpening, hopening, name, afterName, hname, text, after, htext,
        ⟨⟩⟩ := hskip
    have hnamed :=
      (Cursor.passes_of_expect? hopening).reaches.trans
        (reaches_of_readName hname)
    exact (hnamed.trans (reaches_skipSpaces afterName)).trans
      (reaches_of_readUntil htext)

theorem reaches_of_skipLiteral (hskip : skipLiteral c = some d) :
    c.Reaches d := by
  simp only [skipLiteral, Option.bind_eq_bind, Option.bind_eq_some_iff,
    Prod.exists] at hskip
  obtain ⟨afterOpening, hopening, text, after, htext, ⟨⟩⟩ := hskip
  exact (Cursor.passes_of_expect? hopening).reaches.trans
    (reaches_of_readUntil htext)

/-- What a piece holds stands in a text, and a start tag stands there as people
write it. -/
def Piece.IsWithin (c : Cursor) : Piece → Prop
  | .tag t => c.Contains t.start ∧ t.IsWritten
  | .text run => c.Contains run
  | _ => True

theorem Piece.IsWithin.of_contains {piece : Piece} (hcd : c.Contains d)
    (hpiece : piece.IsWithin d) : piece.IsWithin c := by
  cases piece with
  | tag tag => exact ⟨hcd.trans hpiece.1, hpiece.2⟩
  | endTag name stop => trivial
  | text run => exact hcd.trans hpiece
  | ignored => trivial

theorem of_readEndTag {piece : Piece} (hread : readEndTag c = some (piece, d)) :
    c.Reaches d ∧ piece.IsWithin c := by
  simp only [readEndTag, Option.bind_eq_bind, Option.bind_eq_some_iff,
    Prod.exists] at hread
  obtain ⟨afterOpening, hopening, name, afterName, hname, after, hclose, ⟨⟩⟩ :=
    hread
  have hpasses :=
    (Cursor.passes_of_expect? hopening).trans (passes_of_readQName hname).1
  exact ⟨(hpasses.reaches.trans (reaches_skipSpaces afterName)).trans
    (passes_of_char? hclose).reaches, trivial⟩

theorem of_readText {piece : Piece} (hread : readText c = some (piece, d)) :
    c.Reaches d ∧ piece.IsWithin c := by
  unfold readText at hread
  dsimp only at hread
  split at hread
  · cases hread
    exact ⟨c.reaches_skip _, c.contains_run _⟩
  · contradiction

theorem exists_name_of_readEndTag {piece : Piece}
    (hread : readEndTag c = some (piece, d)) :
    ∃ name, piece = .endTag name d.pos := by
  simp only [readEndTag, Option.bind_eq_bind, Option.bind_eq_some_iff,
    Prod.exists] at hread
  obtain ⟨_, _, name, _, _, _, _, ⟨⟩⟩ := hread
  exact ⟨name, rfl⟩

theorem exists_run_of_readText {piece : Piece}
    (hread : readText c = some (piece, d)) : ∃ run, piece = .text run := by
  unfold readText at hread
  dsimp only at hread
  split at hread
  · cases hread
    exact ⟨_, rfl⟩
  · contradiction

/-- What the front of a text tells of its first piece. -/
theorem readPiece_cases {piece : Piece}
    (hread : readPiece c = some (piece, d)) :
    (piece = .ignored ∧
        (skipComment c = some d ∨ skipLiteral c = some d ∨
          skipInstruction c = some d)) ∨
      (∃ name, readEndTag c = some (piece, d) ∧ piece = .endTag name d.pos) ∨
      (∃ tag, readStartTag c = some (tag, d) ∧ piece = .tag tag) ∨
      ∃ run, readText c = some (piece, d) ∧ piece = .text run := by
  have hignored {skip : Cursor → Option Cursor}
      (hread : (skip c).map (fun e => (Piece.ignored, e)) = some (piece, d)) :
      piece = .ignored ∧ skip c = some d := by
    obtain ⟨after, hskip, ⟨⟩⟩ := Option.map_eq_some_iff.mp hread
    exact ⟨rfl, hskip⟩
  unfold readPiece at hread
  split at hread
  · exact Or.inl ((hignored hread).imp_right Or.inl)
  · split at hread
    · exact Or.inl
        ((hignored hread).imp_right fun hskip => Or.inr (Or.inl hskip))
    · split at hread
      · exact Or.inl
          ((hignored hread).imp_right fun hskip => Or.inr (Or.inr hskip))
      · split at hread
        · obtain ⟨name, hname⟩ := exists_name_of_readEndTag hread
          exact Or.inr (Or.inl ⟨name, hread, hname⟩)
        · split at hread
          · obtain ⟨⟨tag, after⟩, htag, ⟨⟩⟩ := Option.map_eq_some_iff.mp hread
            exact Or.inr (Or.inr (Or.inl ⟨tag, htag, rfl⟩))
          · obtain ⟨run, hrun⟩ := exists_run_of_readText hread
            exact Or.inr (Or.inr (Or.inr ⟨run, hread, hrun⟩))

theorem of_readPiece {piece : Piece} (hread : readPiece c = some (piece, d)) :
    c.Reaches d ∧ piece.IsWithin c := by
  rcases readPiece_cases hread with
    ⟨rfl, hskip | hskip | hskip⟩ | ⟨_, hend, _⟩ | ⟨tag, htag,
      rfl⟩ | ⟨_, htext, _⟩
  · exact ⟨reaches_of_skipComment hskip, trivial⟩
  · exact ⟨reaches_of_skipLiteral hskip, trivial⟩
  · exact ⟨reaches_of_skipInstruction hskip, trivial⟩
  · exact of_readEndTag hend
  · obtain ⟨hreaches, rfl, hwritten⟩ := of_readStartTag htag
    exact ⟨hreaches, Cursor.Contains.refl _, hwritten⟩
  · exact of_readText htext

/-- The second cursor is reached from the first, and the pieces read on the way
stand in the text of the first. -/
structure ReadsPieces (c d : Cursor) (pieces : List Piece) : Prop where
  reaches : c.Reaches d
  within : ∀ piece ∈ pieces, piece.IsWithin c

theorem ReadsPieces.cons {e : Cursor} {piece : Piece} {pieces : List Piece}
    (hce : c.Reaches e) (hpiece : piece.IsWithin c)
    (hrest : ReadsPieces e d pieces) : ReadsPieces c d (piece :: pieces) where
  reaches := hce.trans hrest.reaches
  within := by
    rw [List.forall_mem_cons]
    exact ⟨hpiece,
      fun other hother => (hrest.within other hother).of_contains hce.contains⟩

theorem readsPieces_of_readPieces {fuel depth : Nat} {pieces : List Piece}
    (hread : readPieces fuel depth c = some (pieces, d)) :
    ReadsPieces c d pieces := by
  induction fuel generalizing depth c pieces with
  | zero => contradiction
  | succ fuel ih =>
      unfold readPieces at hread
      split at hread
      · cases hread
        exact ⟨Cursor.Reaches.refl d, by simp⟩
      · simp only [Option.bind_eq_bind, Option.bind_eq_some_iff, Prod.exists]
          at hread
        obtain ⟨piece, afterPiece, hpiece, others, after, hothers, ⟨⟩⟩ := hread
        obtain ⟨hreaches, hwithin⟩ := of_readPiece hpiece
        exact ReadsPieces.cons hreaches hwithin (ih hothers)

theorem readsPieces_of_readElement {pieces : List Piece}
    (hread : readElement c = some (pieces, d)) : ReadsPieces c d pieces := by
  simp only [readElement, Option.bind_eq_bind, Option.bind_eq_some_iff,
    Prod.exists] at hread
  obtain ⟨tag, afterTag, htag, others, after, hothers, ⟨⟩⟩ := hread
  obtain ⟨hreaches, rfl, hwritten⟩ := of_readStartTag htag
  exact ReadsPieces.cons hreaches ⟨Cursor.Contains.refl _, hwritten⟩
    (readsPieces_of_readPieces hothers)

theorem isWithin_of_readContent {pieces : List Piece}
    (hread : readContent c = some pieces) :
    ∀ piece ∈ pieces, piece.IsWithin c := by
  obtain ⟨⟨read, after⟩, hpieces, rfl⟩ := Option.map_eq_some_iff.mp hread
  exact (readsPieces_of_readPieces hpieces).within

end WebConfigAudit.Xml
