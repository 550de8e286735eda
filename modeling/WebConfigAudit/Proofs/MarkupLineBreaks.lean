import WebConfigAudit.Proofs.LineBreaks
import WebConfigAudit.Proofs.MarkupPassage
/-!
Markup with a carriage return before every line feed.  Both characters are
blanks wherever blanks are passed over and plain characters elsewhere, so each
reader reads the same parts at the same places.
-/

namespace WebConfigAudit.Xml

open Text (Cursor HasNoBreak)

/-- The attribute in the text with carriage returns. -/
def Attribute.withReturns (a : Attribute) : Attribute :=
  { a with value := a.value.withReturns }

/-- The start tag in the text with carriage returns. -/
def StartTag.withReturns (tag : StartTag) : StartTag :=
  { tag with
    start := tag.start.withReturns
    attributes := tag.attributes.map Attribute.withReturns }

/-- The piece in the text with carriage returns. -/
def Piece.withReturns : Piece → Piece
  | .tag t => .tag t.withReturns
  | .text run => .text run.withReturns
  | .endTag name stop => .endTag name stop
  | .ignored => .ignored

/-- A step that passes over the same text, with carriage returns and without. -/
def KeepsPlace (skip : Cursor → Option Cursor) : Prop :=
  ∀ c : Cursor, skip c.withReturns = (skip c).map Cursor.withReturns

/-- A reader that reads the same, up to `f`, and stops at the same place. -/
def Keeps {α : Type} (f : α → α) (read : Reader α) : Prop :=
  ∀ c : Cursor, read c.withReturns = (read c).map fun found =>
    (f found.1, found.2.withReturns)

/-- Steps that agree one after another agree together. -/
theorem map_bind_eq {α α' β β' : Type} {x : Option α} {g : α → α'}
    {f : α → Option β} {f' : α' → Option β'} {h : β → β'}
    (hf : ∀ a, x = some a → f' (g a) = (f a).map h) :
    (x.map g).bind f' = (x.bind f).map h := by
  cases x with
  | none => rfl
  | some a => exact hf a rfl

section Parts

variable {c : Cursor}

theorem skipSpaces_withReturns (c : Cursor) :
    skipSpaces c.withReturns = (skipSpaces c).withReturns :=
  Cursor.skip_withReturns (by decide) c

theorem startsWith_withReturns {text : List Char} (htext : HasNoBreak text)
    (c : Cursor) : startsWith text c.withReturns = startsWith text c :=
  Text.isPrefixOf_withReturns htext c.rest

theorem keepsPlace_spaces? : KeepsPlace spaces? := by
  intro c
  unfold spaces?
  rw [Cursor.withReturns_rest]
  cases hrest : c.rest with
  | nil => rfl
  | cons x rest =>
      by_cases hx : x = '\n'
      · subst hx
        exact congrArg some (skipSpaces_withReturns c)
      · rw [Text.withReturns_cons hx]
        dsimp only
        split
        · exact congrArg some (skipSpaces_withReturns c)
        · rfl

theorem keepsPlace_char? {x : Char} (hx : HasNoBreak [x]) :
    KeepsPlace (char? x) := by
  intro c
  unfold char?
  rw [Cursor.withReturns_rest]
  cases hrest : c.rest with
  | nil => rfl
  | cons y rest =>
      by_cases hy : y = '\n'
      · subst hy
        rw [Text.withReturns_lineFeed]
        dsimp only
        simp only [HasNoBreak, List.mem_singleton] at hx
        rw [if_neg hx.2, if_neg hx.1]
        rfl
      · rw [Text.withReturns_cons hy]
        dsimp only
        split
        · rw [Cursor.next_withReturns hrest hy]
          rfl
        · rfl

theorem keeps_readName : Keeps id readName := by
  intro c
  unfold readName
  rw [Cursor.run_withReturns_of_unbroken (by decide) (by decide),
    Cursor.skip_withReturns (by decide), Cursor.withReturns_rest]
  cases hrest : c.rest with
  | nil => rfl
  | cons x rest =>
      by_cases hx : x = '\n'
      · subst hx
        rfl
      · rw [Text.withReturns_cons hx]
        dsimp only
        split
        · rfl
        · rfl

theorem keeps_readQName : Keeps id readQName := by
  intro c
  rw [readQName, readQName,
    Cursor.run_withReturns_of_unbroken (by decide) (by decide),
    Cursor.skip_withReturns (by decide), Option.map_map]
  rfl

theorem keeps_readQuoteMark : Keeps id readQuoteMark := by
  intro c
  unfold readQuoteMark
  rw [Cursor.withReturns_rest]
  cases hrest : c.rest with
  | nil => rfl
  | cons x rest =>
      by_cases hx : x = '\n'
      · subst hx
        rfl
      · rw [Text.withReturns_cons hx]
        dsimp only
        split
        · rw [Cursor.next_withReturns hrest hx]
          rfl
        · rfl

/-- A quote mark is no part of a line end. -/
theorem hasNoBreak_of_readQuoteMark {mark : Char} {d : Cursor}
    (hread : readQuoteMark c = some (mark, d)) : HasNoBreak [mark] := by
  rcases (passes_of_readQuoteMark hread).2 with rfl | rfl
  · decide
  · decide

theorem HasNoBreak.ne_eq {mark : Char} (hmark : HasNoBreak [mark]) :
    decide ('\r' ≠ mark) = decide ('\n' ≠ mark) := by
  simp only [HasNoBreak, List.mem_singleton] at hmark
  simp [hmark.1, hmark.2]

theorem keeps_readQuoted : Keeps Cursor.withReturns readQuoted := by
  intro c
  unfold readQuoted
  simp only [Option.bind_eq_bind]
  rw [keeps_readQuoteMark]
  refine map_bind_eq fun ⟨mark, inside⟩ hmark => ?_
  have hplain := hasNoBreak_of_readQuoteMark hmark
  have hclass := HasNoBreak.ne_eq hplain
  dsimp only [id]
  rw [Cursor.skip_withReturns hclass, keepsPlace_char? hplain,
    Cursor.run_withReturns hclass]
  exact map_bind_eq fun after _ => rfl

theorem keeps_readUntil {ending : List Char} (hending : HasNoBreak ending)
    (hne : ending ≠ []) : Keeps Text.withReturns (readUntil ending) := by
  intro c
  unfold readUntil
  simp only [Option.bind_eq_bind]
  rw [Cursor.withReturns_rest, Text.before?_withReturns hending hne]
  refine map_bind_eq fun text htext => ?_
  rw [Text.all_withReturns (by decide)]
  split
  · obtain ⟨rest, hrest⟩ := Text.exists_rest_of_before? htext
    have hbegins : (text ++ ending).isPrefixOf c.rest = true := by
      rw [List.isPrefixOf_iff_prefix, hrest]
      exact List.prefix_append _ rest
    have hdrop := Cursor.drop_length_withReturns hbegins
    rw [Text.withReturns_append, Text.withReturns_of_unbroken hending.1,
      List.length_append, List.length_append] at hdrop
    rw [hdrop]
    rfl
  · rfl

theorem keeps_readValue : Keeps Cursor.withReturns readValue := by
  intro c
  unfold readValue
  simp only [Option.bind_eq_bind]
  rw [keeps_readQuoteMark]
  refine map_bind_eq fun ⟨mark, inside⟩ hmark => ?_
  have hplain := hasNoBreak_of_readQuoteMark hmark
  let insideClass (x : Char) : Bool := x ≠ mark && x ≠ '<'
  have hclass : insideClass '\r' = insideClass '\n' := by
    simp only [insideClass, HasNoBreak.ne_eq hplain]
    rfl
  have hrun := Cursor.run_withReturns hclass inside
  have hskip := Cursor.skip_withReturns hclass inside
  have hall :=
    Text.all_withReturns (p := isAllowed) (by decide) (inside.run insideClass)
  have hclose := keepsPlace_char? hplain (inside.skip insideClass)
  simp only [insideClass] at hrun hskip hall hclose
  simp only [id, hrun, hskip, hall, hclose]
  split
  · exact map_bind_eq fun after _ => rfl
  · rfl

theorem keeps_readAttribute : Keeps Attribute.withReturns readAttribute := by
  intro c
  unfold readAttribute
  simp only [Option.bind_eq_bind]
  rw [keeps_readQName]
  refine map_bind_eq fun ⟨name, afterName⟩ _ => ?_
  dsimp only [id]
  rw [skipSpaces_withReturns, keepsPlace_char? (by decide)]
  refine map_bind_eq fun afterEquals _ => ?_
  rw [skipSpaces_withReturns, keeps_readValue]
  exact map_bind_eq fun _ _ => rfl

theorem hasLooseHyphens_cons_of_ne {x : Char} (hx : x ≠ '-')
    (rest : List Char) :
    hasLooseHyphens (x :: rest) = hasLooseHyphens rest := by
  rw [hasLooseHyphens]
  · exact fun heq => absurd heq hx
  · exact fun _ heq => absurd heq hx

theorem hasLooseHyphens_hyphen_cons {x : Char} (hx : x ≠ '-')
    (rest : List Char) :
    hasLooseHyphens ('-' :: x :: rest) = hasLooseHyphens (x :: rest) := by
  rw [hasLooseHyphens]
  · exact fun _ heq => absurd heq (List.cons_ne_nil x rest)
  · exact fun _ _ heq => absurd (List.cons.inj heq).1 hx

/-- A line end keeps hyphens apart in both forms. -/
theorem hasLooseHyphens_withReturns (cs : List Char) :
    hasLooseHyphens (Text.withReturns cs) = hasLooseHyphens cs := by
  induction cs with
  | nil => rfl
  | cons x cs ih =>
      by_cases hfeed : x = '\n'
      · subst hfeed
        rw [Text.withReturns_lineFeed, hasLooseHyphens_cons_of_ne (by decide),
          hasLooseHyphens_cons_of_ne (by decide),
          hasLooseHyphens_cons_of_ne (by decide), ih]
      · rw [Text.withReturns_cons hfeed]
        by_cases hx : x = '-'
        · subst hx
          cases cs with
          | nil => rfl
          | cons y cs =>
              by_cases hy : y = '-'
              · subst hy
                rfl
              · rw [hasLooseHyphens_hyphen_cons hy, ← ih]
                by_cases hbreak : y = '\n'
                · subst hbreak
                  exact hasLooseHyphens_hyphen_cons (by decide) _
                · rw [Text.withReturns_cons hbreak]
                  exact hasLooseHyphens_hyphen_cons hy _
        · rw [hasLooseHyphens_cons_of_ne hx, hasLooseHyphens_cons_of_ne hx, ih]

theorem keepsPlace_skipComment : KeepsPlace skipComment := by
  intro c
  unfold skipComment
  simp only [Option.bind_eq_bind]
  rw [Cursor.expect?_withReturns (by decide)]
  refine map_bind_eq fun inside _ => ?_
  rw [keeps_readUntil (by decide) (by decide)]
  refine map_bind_eq fun ⟨text, after⟩ _ => ?_
  dsimp only
  rw [hasLooseHyphens_withReturns]
  split
  · rfl
  · rfl

theorem keepsPlace_skipInstruction : KeepsPlace skipInstruction := by
  intro c
  unfold skipInstruction
  rw [startsWith_withReturns (by decide)]
  split
  · rfl
  · simp only [Option.bind_eq_bind]
    rw [Cursor.expect?_withReturns (by decide)]
    refine map_bind_eq fun inside _ => ?_
    rw [keeps_readName]
    refine map_bind_eq fun ⟨name, afterName⟩ _ => ?_
    dsimp only
    rw [skipSpaces_withReturns, keeps_readUntil (by decide) (by decide)]
    exact map_bind_eq fun _ _ => rfl

theorem keepsPlace_skipLiteral : KeepsPlace skipLiteral := by
  intro c
  unfold skipLiteral
  simp only [Option.bind_eq_bind]
  rw [Cursor.expect?_withReturns (by decide)]
  refine map_bind_eq fun inside _ => ?_
  rw [keeps_readUntil (by decide) (by decide)]
  exact map_bind_eq fun _ _ => rfl

theorem keeps_readEndTag : Keeps Piece.withReturns readEndTag := by
  intro c
  unfold readEndTag
  simp only [Option.bind_eq_bind]
  rw [Cursor.expect?_withReturns (by decide)]
  refine map_bind_eq fun inside _ => ?_
  rw [keeps_readQName]
  refine map_bind_eq fun ⟨name, afterName⟩ _ => ?_
  dsimp only
  rw [skipSpaces_withReturns, keepsPlace_char? (by decide)]
  exact map_bind_eq fun _ _ => rfl

theorem keeps_readText : Keeps Piece.withReturns readText := by
  intro c
  unfold readText
  dsimp only
  rw [Cursor.run_withReturns (by decide), Cursor.skip_withReturns (by decide),
    Text.all_withReturns (by decide),
    Text.occurs_withReturns (by decide) (by decide)]
  split
  · rfl
  · rfl

theorem advances_of_spaces? {d : Cursor} (hread : spaces? c = some d) :
    c.Advances d := by
  obtain ⟨blanks, hpasses, hne, _⟩ := passes_of_spaces? hread
  exact hpasses.advances hne

theorem advances_of_char? {x : Char} {d : Cursor} (hread : char? x c = some d) :
    c.Advances d :=
  (passes_of_char? hread).advances (List.cons_ne_nil x [])

/-- The attributes in the text with carriage returns, and the same end. -/
theorem readAttributes_withReturns {fuel fuel' : Nat}
    (hfuel : c.rest.length < fuel)
    (hfuel' : c.withReturns.rest.length < fuel') :
    readAttributes fuel' c.withReturns =
      (readAttributes fuel c).map fun found =>
        ((found.1.1.map Attribute.withReturns, found.1.2),
          found.2.withReturns) := by
  induction fuel generalizing c fuel' with
  | zero => omega
  | succ fuel ih =>
      obtain ⟨fuel', rfl⟩ :=
        Nat.exists_eq_succ_of_ne_zero (Nat.ne_zero_of_lt hfuel')
      unfold readAttributes
      rw [Cursor.withReturns_rest, Text.isEmpty_withReturns,
        skipSpaces_withReturns]
      split
      · rfl
      · dsimp only
        rw [Cursor.withReturns_rest]
        cases hrest : (skipSpaces c).rest with
        | nil => rfl
        | cons x rest =>
            have hx : x ≠ '\n' := Cursor.ne_of_skip_rest (by decide) hrest
            rw [Text.withReturns_cons hx, Cursor.next_withReturns hrest hx]
            split
            · contradiction
            · next heq =>
                cases heq
                rw [keepsPlace_char? (by decide)]
                cases char? '>' (skipSpaces c).next with
                | none => rfl
                | some after => rfl
            · next heq =>
                cases heq
                rfl
            · next hslash hgreater heq =>
                cases heq
                split
                · contradiction
                · next heq =>
                    cases heq
                    exact (hslash rfl).elim
                · next heq =>
                    cases heq
                    exact (hgreater rfl).elim
                · simp only [Option.bind_eq_bind]
                  rw [keepsPlace_spaces?]
                  refine map_bind_eq fun after hafter => ?_
                  rw [keeps_readAttribute]
                  refine map_bind_eq fun ⟨first, afterFirst⟩ hfirst => ?_
                  have hadvances := (advances_of_spaces? hafter).trans_reaches
                    (reaches_of_readAttribute hfirst)
                  obtain ⟨hbound, hbound'⟩ := hadvances.bounds hfuel hfuel'
                  dsimp only
                  rw [ih hbound hbound']
                  exact map_bind_eq fun _ _ => rfl

theorem keeps_readStartTag : Keeps StartTag.withReturns readStartTag := by
  intro c
  unfold readStartTag
  simp only [Option.bind_eq_bind]
  rw [keepsPlace_char? (by decide)]
  refine map_bind_eq fun afterOpening _ => ?_
  rw [keeps_readQName]
  refine map_bind_eq fun ⟨name, afterName⟩ _ => ?_
  dsimp only [id]
  split
  · rfl
  · rw [readAttributes_withReturns (Nat.lt_succ_self _) (Nat.lt_succ_self _)]
    exact map_bind_eq fun _ _ => rfl

theorem keeps_readPiece : Keeps Piece.withReturns readPiece := by
  intro c
  unfold readPiece
  simp only [startsWith_withReturns
      (show HasNoBreak ['<', '!', '-', '-'] by decide),
    startsWith_withReturns (show HasNoBreak ['<', '!'] by decide),
    startsWith_withReturns (show HasNoBreak ['<', '?'] by decide),
    startsWith_withReturns (show HasNoBreak ['<', '/'] by decide),
    startsWith_withReturns (show HasNoBreak ['<'] by decide)]
  split
  · rw [keepsPlace_skipComment, Option.map_map, Option.map_map]
    rfl
  · split
    · rw [keepsPlace_skipLiteral, Option.map_map, Option.map_map]
      rfl
    · split
      · rw [keepsPlace_skipInstruction, Option.map_map, Option.map_map]
        rfl
      · split
        · exact keeps_readEndTag c
        · split
          · rw [keeps_readStartTag, Option.map_map, Option.map_map]
            rfl
          · exact keeps_readText c

section Steps

variable {d : Cursor}

theorem advances_of_expect? {text : List Char} (hread : c.expect? text = some d)
    (hne : text ≠ []) : c.Advances d :=
  (Cursor.passes_of_expect? hread).advances hne

theorem advances_of_skipComment (hskip : skipComment c = some d) :
    c.Advances d := by
  simp only [skipComment, Option.bind_eq_bind, Option.bind_eq_some_iff,
    Prod.exists] at hskip
  obtain ⟨afterOpening, hopening, text, after, htext, hskip⟩ := hskip
  split at hskip
  · contradiction
  · cases hskip
    exact (advances_of_expect? hopening (by decide)).trans_reaches
      (reaches_of_readUntil htext)

theorem advances_of_skipInstruction (hskip : skipInstruction c = some d) :
    c.Advances d := by
  unfold skipInstruction at hskip
  split at hskip
  · contradiction
  · simp only [Option.bind_eq_bind, Option.bind_eq_some_iff, Prod.exists]
      at hskip
    obtain ⟨afterOpening, hopening, name, afterName, hname, text, after, htext,
        ⟨⟩⟩ := hskip
    have hnamed := (advances_of_expect? hopening (by decide)).trans_reaches
      (reaches_of_readName hname)
    exact (hnamed.trans_reaches (reaches_skipSpaces afterName)).trans_reaches
      (reaches_of_readUntil htext)

theorem advances_of_skipLiteral (hskip : skipLiteral c = some d) :
    c.Advances d := by
  simp only [skipLiteral, Option.bind_eq_bind, Option.bind_eq_some_iff,
    Prod.exists] at hskip
  obtain ⟨afterOpening, hopening, text, after, htext, ⟨⟩⟩ := hskip
  exact (advances_of_expect? hopening (by decide)).trans_reaches
    (reaches_of_readUntil htext)

theorem advances_of_readStartTag {tag : StartTag}
    (hread : readStartTag c = some (tag, d)) : c.Advances d := by
  obtain ⟨_, _, afterOpening, afterName, fuel, hopening, hname, hattributes⟩ :=
    readStartTag_cases hread
  exact ((advances_of_char? hopening).trans_reaches
    (passes_of_readQName hname).1.reaches)
    |>.trans_reaches (reaches_of_readAttributes hattributes)

theorem advances_of_readEndTag {piece : Piece}
    (hread : readEndTag c = some (piece, d)) : c.Advances d := by
  simp only [readEndTag, Option.bind_eq_bind, Option.bind_eq_some_iff,
    Prod.exists] at hread
  obtain ⟨afterOpening, hopening, name, afterName, hname, after, hclose, ⟨⟩⟩ :=
    hread
  have hnamed := (advances_of_expect? hopening (by decide)).trans_reaches
    (passes_of_readQName hname).1.reaches
  exact (hnamed.trans_reaches (reaches_skipSpaces afterName)).trans_reaches
    (passes_of_char? hclose).reaches

theorem advances_of_readText {piece : Piece} {x : Char} {rest : List Char}
    (hrest : c.rest = x :: rest) (hx : x ≠ '<')
    (hread : readText c = some (piece, d)) : c.Advances d := by
  unfold readText at hread
  dsimp only at hread
  split at hread
  · cases hread
    refine (c.passes_skip (· ≠ '<')).advances ?_
    simp [Cursor.run, hrest, hx]
  · contradiction

/-- As long as there is something to read, a piece takes some of it. -/
theorem advances_of_readPiece {piece : Piece} (hne : c.rest ≠ [])
    (hread : readPiece c = some (piece, d)) : c.Advances d := by
  have hignored {skip : Cursor → Option Cursor} (hskips : ∀ e, skip c = some e →
      c.Advances e)
      (hread : (skip c).map (fun e => (Piece.ignored, e)) = some (piece, d)) :
      c.Advances d := by
    obtain ⟨after, hskip, ⟨⟩⟩ := Option.map_eq_some_iff.mp hread
    exact hskips d hskip
  unfold readPiece at hread
  split at hread
  · exact hignored (fun _ => advances_of_skipComment) hread
  · split at hread
    · exact hignored (fun _ => advances_of_skipLiteral) hread
    · split at hread
      · exact hignored (fun _ => advances_of_skipInstruction) hread
      · split at hread
        · exact advances_of_readEndTag hread
        · split at hread
          · obtain ⟨⟨tag, after⟩, htag, ⟨⟩⟩ := Option.map_eq_some_iff.mp hread
            exact advances_of_readStartTag htag
          · next hplain =>
              obtain ⟨x, rest, hrest⟩ := List.exists_cons_of_ne_nil hne
              refine advances_of_readText hrest ?_ hread
              rintro rfl
              simp [startsWith, hrest] at hplain

end Steps

theorem depthAfter_withReturns (depth : Nat) (piece : Piece) :
    piece.withReturns.depthAfter depth = piece.depthAfter depth := by
  cases piece <;> rfl

theorem readPieces_withReturns {fuel fuel' depth : Nat}
    (hfuel : c.rest.length < fuel)
    (hfuel' : c.withReturns.rest.length < fuel') :
    readPieces fuel' depth c.withReturns =
      (readPieces fuel depth c).map fun found =>
        (found.1.map Piece.withReturns, found.2.withReturns) := by
  induction fuel generalizing depth c fuel' with
  | zero => omega
  | succ fuel ih =>
      obtain ⟨fuel', rfl⟩ :=
        Nat.exists_eq_succ_of_ne_zero (Nat.ne_zero_of_lt hfuel')
      unfold readPieces
      rw [Cursor.withReturns_rest, Text.isEmpty_withReturns]
      split
      · rfl
      · next hgoes =>
          rw [not_or, List.isEmpty_iff] at hgoes
          simp only [Option.bind_eq_bind]
          rw [keeps_readPiece]
          refine map_bind_eq ?_
          rintro ⟨piece, afterPiece⟩ hpiece
          obtain ⟨hbound, hbound'⟩ :=
            (advances_of_readPiece hgoes.2 hpiece).bounds hfuel hfuel'
          dsimp only
          rw [depthAfter_withReturns, ih hbound hbound']
          exact map_bind_eq fun _ _ => rfl

theorem keeps_readElement : Keeps (List.map Piece.withReturns) readElement := by
  intro c
  unfold readElement
  simp only [Option.bind_eq_bind]
  rw [keeps_readStartTag]
  refine map_bind_eq fun ⟨tag, afterTag⟩ _ => ?_
  have hdepth := depthAfter_withReturns 0 (.tag tag)
  dsimp only [Piece.withReturns] at hdepth ⊢
  rw [hdepth, readPieces_withReturns (Nat.lt_succ_self _) (Nat.lt_succ_self _)]
  exact map_bind_eq fun _ _ => rfl

theorem readContent_withReturns (c : Cursor) :
    readContent c.withReturns =
      (readContent c).map (List.map Piece.withReturns) := by
  rw [readContent, readContent,
    readPieces_withReturns (Nat.lt_succ_self _) (Nat.lt_succ_self _),
    Option.map_map, Option.map_map]
  rfl

end Parts

section Values

variable {c d : Cursor}

theorem contains_of_readValue {value : Cursor}
    (hread : readValue c = some (value, d)) : c.Contains value := by
  simp only [readValue, Option.bind_eq_bind, Option.bind_eq_some_iff,
    Prod.exists] at hread
  obtain ⟨mark, inside, hmark, hread⟩ := hread
  split at hread
  · obtain ⟨after, _, ⟨⟩⟩ := Option.bind_eq_some_iff.mp hread
    exact (passes_of_readQuoteMark hmark).1.reaches.contains.trans
      (inside.contains_run _)
  · contradiction

theorem contains_of_readAttribute {a : Attribute}
    (hread : readAttribute c = some (a, d)) : c.Contains a.value := by
  simp only [readAttribute, Option.bind_eq_bind, Option.bind_eq_some_iff,
    Prod.exists] at hread
  obtain ⟨name, afterName, hname, afterEquals, hequals, value, after, hvalue,
      ⟨⟩⟩ := hread
  have hnamed :=
    (passes_of_readQName hname).1.reaches.trans (reaches_skipSpaces afterName)
  have hequalled := hnamed.trans (passes_of_char? hequals).reaches
  exact (hequalled.trans (reaches_skipSpaces afterEquals)).contains.trans
    (contains_of_readValue hvalue)

theorem contains_of_readAttributes {fuel : Nat} {attributes : List Attribute}
    {ending : TagEnd}
    (hread : readAttributes fuel c = some ((attributes, ending), d)) :
    ∀ a ∈ attributes, c.Contains a.value := by
  induction fuel generalizing c attributes with
  | zero => contradiction
  | succ fuel ih =>
      unfold readAttributes at hread
      split at hread
      · cases hread
        simp
      · dsimp only at hread
        split at hread
        · contradiction
        · obtain ⟨after, _, ⟨⟩⟩ := Option.map_eq_some_iff.mp hread
          simp
        · cases hread
          simp
        · simp only [Option.bind_eq_bind, Option.bind_eq_some_iff, Prod.exists]
            at hread
          obtain ⟨after, hafter, first, afterFirst, hfirst, others, _, _,
              hothers, ⟨⟩⟩ := hread
          have hspaces := (advances_of_spaces? hafter).reaches
          rw [List.forall_mem_cons]
          refine ⟨hspaces.contains.trans (contains_of_readAttribute hfirst), ?_⟩
          intro a ha
          exact (hspaces.trans (reaches_of_readAttribute hfirst)).contains.trans
            (ih hothers a ha)

/-- The values in the tag have no carriage returns. -/
def StartTag.HasNoReturns (tag : StartTag) : Prop :=
  ∀ a ∈ tag.attributes, '\r' ∉ a.value.rest

/-- The values in the piece, if it is a start tag, have no carriage returns. -/
def Piece.HasNoReturns : Piece → Prop
  | .tag t => t.HasNoReturns
  | _ => True

theorem hasNoReturns_of_readStartTag {tag : StartTag} (hc : '\r' ∉ c.rest)
    (hread : readStartTag c = some (tag, d)) : tag.HasNoReturns := by
  obtain ⟨_, _, afterOpening, afterName, fuel, hopening, hname, hattributes⟩ :=
    readStartTag_cases hread
  have hnamed :=
    (passes_of_char? hopening).reaches.trans
      (passes_of_readQName hname).1.reaches
  intro a ha
  exact (hnamed.contains.trans
    (contains_of_readAttributes hattributes a ha)).not_mem hc

theorem hasNoReturns_of_readPiece {piece : Piece} (hc : '\r' ∉ c.rest)
    (hread : readPiece c = some (piece, d)) : piece.HasNoReturns := by
  rcases readPiece_cases hread with
    ⟨rfl, _⟩ | ⟨_, _, rfl⟩ | ⟨tag, htag, rfl⟩ | ⟨_, _, rfl⟩
  · trivial
  · trivial
  · exact hasNoReturns_of_readStartTag hc htag
  · trivial

theorem hasNoReturns_of_readPieces {fuel depth : Nat} {pieces : List Piece}
    (hc : '\r' ∉ c.rest) (hread : readPieces fuel depth c = some (pieces, d)) :
    ∀ piece ∈ pieces, piece.HasNoReturns := by
  induction fuel generalizing depth c pieces with
  | zero => contradiction
  | succ fuel ih =>
      unfold readPieces at hread
      split at hread
      · cases hread
        simp
      · simp only [Option.bind_eq_bind, Option.bind_eq_some_iff, Prod.exists]
          at hread
        obtain ⟨piece, afterPiece, hpiece, others, after, hothers, ⟨⟩⟩ := hread
        rw [List.forall_mem_cons]
        exact ⟨hasNoReturns_of_readPiece hc hpiece,
          ih ((of_readPiece hpiece).1.contains.not_mem hc) hothers⟩

theorem hasNoReturns_of_readElement {pieces : List Piece} (hc : '\r' ∉ c.rest)
    (hread : readElement c = some (pieces, d)) :
    ∀ piece ∈ pieces, piece.HasNoReturns := by
  simp only [readElement, Option.bind_eq_bind, Option.bind_eq_some_iff,
    Prod.exists] at hread
  obtain ⟨tag, afterTag, htag, others, after, hothers, ⟨⟩⟩ := hread
  rw [List.forall_mem_cons]
  exact ⟨hasNoReturns_of_readStartTag hc htag,
    hasNoReturns_of_readPieces ((of_readStartTag htag).1.contains.not_mem hc)
      hothers⟩

theorem hasNoReturns_of_readContent {pieces : List Piece} (hc : '\r' ∉ c.rest)
    (hread : readContent c = some pieces) :
    ∀ piece ∈ pieces, piece.HasNoReturns := by
  obtain ⟨⟨read, after⟩, hpieces, rfl⟩ := Option.map_eq_some_iff.mp hread
  exact hasNoReturns_of_readPieces hc hpieces

end Values

end WebConfigAudit.Xml
