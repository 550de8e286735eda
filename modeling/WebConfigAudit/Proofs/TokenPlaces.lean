import Mathlib.Data.List.DropRight
import WebConfigAudit.Proofs.ConfigurationNodes
import WebConfigAudit.Proofs.LineTable
/-!
Places in a text and offsets in bytes, turned into each other without loss.  A
line table gives every offset at which the text can be cut a place of its own,
so the places of a token tell which bytes it takes.
-/

namespace WebConfigAudit

open Text (Position LineTable byteCount slice?)

namespace Text

/-- An offset at which a text can be cut, between two characters or at one of
its ends. -/
def IsBoundary (source : List Char) (offset : Nat) : Prop :=
  ∃ before after, source = before ++ after ∧ offset = byteCount before

theorem isBoundary_append (before after : List Char) :
    IsBoundary (before ++ after) (byteCount before) :=
  ⟨before, after, rfl, rfl⟩

/-- The characters after the last line feed. -/
def lastLine (cs : List Char) : List Char :=
  cs.rtakeWhile (· ≠ '\n')

theorem lastLine_append {head line : List Char} (hhead : EndsLine head)
    (hline : '\n' ∉ line) : lastLine (head ++ line) = line := by
  have hall : ∀ c ∈ line.reverse, decide (c ≠ '\n') = true := by
    intro c hc
    rw [decide_eq_true_eq]
    rintro rfl
    exact hline (List.mem_reverse.mp hc)
  rw [lastLine, List.rtakeWhile, List.reverse_append,
    List.takeWhile_append_of_pos hall, List.reverse_append,
    List.reverse_reverse]
  rcases hhead.eq_nil_or_concat with rfl | ⟨front, rfl⟩
  · rfl
  · simp

namespace LineTable

/-- The search never asks for a line before the first one, and the line that it
finds does not start behind the offset. -/
theorem slot_ne_missing_zero (source : List Char) (offset : Nat) :
    (of source).slot offset ≠ .missing 0 ∧
      ((of source).slot offset).lastIndex < (of source).starts.length ∧
      (of source).lineStart offset ≤ min offset (byteCount source) := by
  have hslot := slot_isFor source offset
  rw [lineStart, List.getD_eq_getElem?_getD]
  generalize (of source).slot offset = slot at hslot ⊢
  cases slot with
  | found index =>
      obtain ⟨hindex, _⟩ := List.getElem?_eq_some_iff.mp hslot
      refine ⟨by simp, hindex, ?_⟩
      rw [Slot.lastIndex, hslot, Option.getD_some]
  | missing index =>
      obtain ⟨hlength, hentries⟩ := hslot
      cases index with
      | zero =>
          -- the first line starts at zero, and no offset lies before that
          have hnegative := (hentries 0 0 rfl).2 (Nat.le_refl 0)
          exact absurd hnegative (Nat.not_lt_zero _)
      | succ index =>
          have hentry : (of source).starts[index]? =
              some (of source).starts[index] :=
            List.getElem?_eq_getElem hlength
          refine ⟨by simp, hlength, ?_⟩
          rw [Slot.lastIndex, Nat.add_sub_cancel, hentry, Option.getD_some]
          exact ((hentries _ _ hentry).1 (Nat.lt_succ_self index)).le

/-- A place counts the line feeds before it, and the characters after the last
of them. -/
theorem position_eq_counts (before after : List Char) :
    let table := of (before ++ after)
    slice? (before ++ after) (table.lineStart (byteCount before))
          (byteCount before) =
        some (lastLine before) ∧
      table.position (byteCount before) =
        ⟨1 + before.count '\n', 1 + (lastLine before).length⟩ := by
  intro table
  obtain ⟨head, line, rfl, hhead, hline⟩ := exists_lastLine before
  rw [lastLine_append hhead hline]
  refine ⟨slice?_lineStart hhead hline after, ?_⟩
  have hnone : line.count '\n' = 0 := List.count_eq_zero.mpr hline
  have hstartLine : Position.start.line = 1 := rfl
  rw [position_byteCount, Position.advance_append,
    Position.advance_of_unbroken hline,
    Position.column_advance_of_endsLine hhead, Position.line_advance,
    hstartLine, List.count_append, hnone, Nat.add_zero]

section Boundaries

variable {source : List Char} {d e : Nat}

theorem before_of_lt (hd : IsBoundary source d) (he : IsBoundary source e)
    (hlt : d < e) :
    ((of source).position d).Before ((of source).position e) := by
  obtain ⟨before, after, rfl, rfl⟩ := hd
  obtain ⟨longer, rest, hsource, rfl⟩ := he
  have hlater : ∃ c text, longer = before ++ c :: text := by
    rcases List.prefix_or_prefix_of_prefix ⟨after, rfl⟩ ⟨rest, hsource.symm⟩
      with hle | hge
    · obtain ⟨text, rfl⟩ := hle
      cases text with
      | nil => simp at hlt
      | cons c text => exact ⟨c, text, rfl⟩
    · obtain ⟨text, rfl⟩ := hge
      exact absurd hlt (Nat.not_lt_of_le (byteCount_le_append longer text))
  obtain ⟨c, text, rfl⟩ := hlater
  rw [position_byteCount before after, hsource, position_byteCount,
    Position.advance_append]
  exact Position.before_advance_cons _ c text

/-- Later offsets have later places, and the other way round. -/
theorem before_iff_lt (hd : IsBoundary source d) (he : IsBoundary source e) :
    ((of source).position d).Before ((of source).position e) ↔ d < e := by
  refine ⟨fun hbefore => ?_, before_of_lt hd he⟩
  rcases Nat.lt_trichotomy d e with hlt | rfl | hgt
  · exact hlt
  · exact absurd rfl hbefore.ne
  · exact absurd rfl (hbefore.trans (before_of_lt he hd hgt)).ne

end Boundaries

end LineTable

/-- A place on one of the lines of a text: at one of its characters, or behind
the last of them. -/
def Position.IsIn (source : List Char) (pos : Position) : Prop :=
  1 ≤ pos.line ∧ 1 ≤ pos.column ∧
    ∃ line, (source.splitOn '\n')[pos.line - 1]? = some line ∧
    pos.column ≤ line.length + 1

/-- Each line feed that is passed over leads to the next of the lines that the
text has from a place on. -/
theorem Position.exists_line_advance (pos : Position)
    (before after : List Char) :
    ∃ passed line, ((before ++ after).splitOn '\n')[passed]? = some line ∧
      (pos.advance before).line = pos.line + passed ∧
      (pos.advance before).column ≤ (if passed = 0 then pos.column else 1) +
        line.length := by
  induction before generalizing pos with
  | nil =>
      obtain ⟨line, others, hlines⟩ :=
        List.exists_cons_of_ne_nil (List.splitOn_ne_nil '\n' after)
      exact ⟨0, line, by simp [hlines], rfl, Nat.le_add_right _ _⟩
  | cons c before ih =>
      obtain ⟨passed, line, hline, hnumber, hcolumn⟩ := ih (pos.after c)
      rw [advance_cons, List.cons_append, List.splitOn_cons_eq_if_modifyHead]
      by_cases hc : c = '\n'
      · subst hc
        refine ⟨passed + 1, line, by simpa using hline, ?_, ?_⟩
        · rw [hnumber]
          exact Nat.add_right_comm pos.line 1 passed
        · have hfirst : (pos.after '\n').column = 1 := rfl
          rwa [hfirst, ite_self] at hcolumn
      · have hafter : pos.after c = ⟨pos.line, pos.column + 1⟩ := if_neg hc
        rw [hafter] at hnumber hcolumn ⊢
        rw [if_neg (by simpa using hc)]
        cases passed with
        | zero =>
            refine ⟨0, c :: line, by simp [hline], hnumber, ?_⟩
            simp only [if_true, List.length_cons] at hcolumn ⊢
            omega
        | succ passed =>
            exact ⟨passed + 1, line, by simp [hline], hnumber, hcolumn⟩

/-- The table gives every offset at which the text can be cut a place that is in
the text. -/
theorem IsBoundary.position_isIn {source : List Char} {offset : Nat}
    (hoffset : IsBoundary source offset) :
    ((LineTable.of source).position offset).IsIn source := by
  obtain ⟨before, after, rfl, rfl⟩ := hoffset
  have hcounts := (LineTable.position_eq_counts before after).2
  refine ⟨?_, ?_, ?_⟩
  · rw [hcounts]
    exact Nat.le_add_right _ _
  · rw [hcounts]
    exact Nat.le_add_right _ _
  · obtain ⟨passed, line, hline, hnumber, hcolumn⟩ :=
      Position.start.exists_line_advance before after
    have hfirst : Position.start.column = 1 := rfl
    have hpassed : (Position.start.advance before).line - 1 = passed := by
      rw [hnumber]
      exact Nat.add_sub_cancel_left 1 passed
    rw [hfirst, ite_self, Nat.add_comm] at hcolumn
    rw [LineTable.position_byteCount]
    exact ⟨line, by rw [hpassed]; exact hline, hcolumn⟩

theorem exists_of_offsetFrom? {wanted pos : Position} {cs : List Char}
    {offset : Nat} (hoffset : offsetFrom? wanted pos cs = some offset) :
    ∃ before after, cs = before ++ after ∧ offset = byteCount before ∧
      wanted = pos.advance before := by
  induction cs generalizing pos offset with
  | nil =>
      rw [offsetFrom?] at hoffset
      split at hoffset
      · next hsame =>
          cases hoffset
          exact ⟨[], [], rfl, rfl, hsame.symm⟩
      · contradiction
  | cons c rest ih =>
      rw [offsetFrom?] at hoffset
      split at hoffset
      · next hsame =>
          cases hoffset
          exact ⟨[], c :: rest, rfl, rfl, hsame.symm⟩
      · obtain ⟨others, hothers, rfl⟩ := Option.map_eq_some_iff.mp hoffset
        obtain ⟨before, after, rfl, rfl, hwanted⟩ := ih hothers
        exact ⟨c :: before, after, rfl, (byteCount_cons c before).symm, hwanted⟩

/-- A place is decoded to an offset exactly if the table gives the place to the
offset. -/
theorem offset?_eq_some_iff {source : List Char} {pos : Position}
    {offset : Nat} :
    pos.offset? source = some offset ↔
      IsBoundary source offset ∧
      (LineTable.of source).position offset = pos := by
  constructor
  · intro hoffset
    obtain ⟨before, after, rfl, rfl, rfl⟩ := exists_of_offsetFrom? hoffset
    exact ⟨isBoundary_append before after,
      LineTable.position_byteCount before after⟩
  · rintro ⟨⟨before, after, rfl, rfl⟩, rfl⟩
    rw [LineTable.position_byteCount]
    exact Position.offset?_advance before after

end Text

/-- The characters of a text that two places enclose. -/
def Span.cut? (source : List Char) (span : Span) : Option (List Char) := do
  let start ← span.start.offset? source
  let stop ← span.stop.offset? source
  slice? source start stop

/-- The token is a stretch of the text, and has the place of that stretch. -/
def RawToken.StandsIn (source : List Char) (token : RawToken) : Prop :=
  ∃ before after, source = before ++ token.text ++ after ∧
    token = .placed (Position.start.advance before) token.text

theorem RawToken.StandsIn.cut?_eq {source : List Char} {token : RawToken}
    (hstands : token.StandsIn source) :
    token.span.cut? source = some token.text := by
  obtain ⟨before, after, hsource, htoken⟩ := hstands
  generalize token.text = text at hsource htoken
  subst hsource htoken
  have hstart :
      (Position.start.advance before).offset? (before ++ text ++ after) =
        some (byteCount before) := by
    rw [List.append_assoc]
    exact Position.offset?_advance before (text ++ after)
  have hstop : ((Position.start.advance before).advance text).offset?
        (before ++ text ++ after) =
      some (byteCount before + byteCount text) := by
    rw [← Position.advance_append, ← Text.byteCount_append]
    exact Position.offset?_advance (before ++ text) after
  simp only [Span.cut?, placed, hstart, hstop]
  exact Text.slice?_append before text after

/-- The tokens of attributes one after the other. -/
def attributeTokens (attributes : List RawAttribute) : List RawToken :=
  attributes.flatMap fun a => [a.name, a.value]

/-- The tokens of a start tag, in order. -/
def RawStartTag.tokens (raw : RawStartTag) : List RawToken :=
  raw.name :: attributeTokens raw.attributes

theorem WrittenAttribute.standsIn_of_mem {attributes : List WrittenAttribute}
    {before after source : List Char} {token : RawToken}
    (hsource : source = before ++ attributes.flatMap chars ++ after)
    (htoken : token ∈
      attributeTokens
        (allTokensAt (Position.start.advance before) attributes)) :
    token.StandsIn source := by
  induction attributes generalizing before with
  | nil => simp [allTokensAt, attributeTokens] at htoken
  | cons a others ih =>
      rw [allTokensAt, attributeTokens, List.flatMap_cons, List.mem_append]
        at htoken
      rcases htoken with hfirst | hother
      · rw [List.mem_pair] at hfirst
        rcases hfirst with rfl | rfl
        · refine ⟨before ++ a.gap,
            a.beforeEquals ++ '=' :: a.afterEquals ++ a.quoted ++
              others.flatMap chars ++ after, ?_, ?_⟩
          · simp [hsource, chars, beforeValue, tokensAt, RawToken.placed]
          · rw [Position.advance_append]
            rfl
        · refine ⟨before ++ a.beforeValue,
            others.flatMap chars ++ after, ?_, ?_⟩
          · simp [hsource, chars, tokensAt, RawToken.placed]
          · rw [Position.advance_append]
            rfl
      · have hrest :
            source = before ++ a.chars ++ others.flatMap chars ++ after := by
          simp [hsource]
        refine ih hrest ?_
        rwa [Position.advance_append]

theorem WrittenTag.standsIn_of_mem {tag : WrittenTag}
    {before after source : List Char} {token : RawToken}
    (hsource : source = before ++ tag.chars ++ after)
    (htoken : token ∈ (tag.tokensAt (Position.start.advance before)).tokens) :
    token.StandsIn source := by
  rcases List.mem_cons.mp htoken with rfl | hattribute
  · refine ⟨before ++ ['<'], tag.afterName ++ after, ?_, ?_⟩
    · simp [hsource, chars, tokensAt, RawToken.placed]
    · rw [Position.advance_append]
      rfl
  · have hafterName : source = before ++ '<' :: tag.name ++
        tag.attributes.flatMap WrittenAttribute.chars ++
        (tag.gap ++ tag.ending ++ after) := by
      simp [hsource, chars, afterName]
    refine WrittenAttribute.standsIn_of_mem hafterName ?_
    rw [Position.advance_append]
    exact hattribute

/-- The tokens of an element in order: its name, and the tokens of its attribute
statements. -/
def Node.tagTokens (node : Node) : List Node :=
  node.children.flatMap fun child =>
    if child.kind = .statement then child.children else [child]

/-- The node has the text and the place of the token. -/
structure RawToken.IsShownBy (token : RawToken) (node : Node) : Prop where
  text : node.text = String.ofList token.text
  span : node.span = token.span
  kind : node.kind = .tagName ∨ node.kind = .attributeName ∨
    node.kind = .attributeValue
  children : node.children = []

theorem flatMap_of_isStatedBy {attributes : List RawAttribute}
    {statements : List Node}
    (hstated : List.Forall₂ RawAttribute.IsStatedBy attributes statements) :
    List.Forall₂ RawToken.IsShownBy (attributeTokens attributes)
      (statements.flatMap fun child =>
        if child.kind = .statement then child.children else [child]) := by
  induction hstated with
  | nil => exact List.Forall₂.nil
  | cons hfirst _ ih =>
      rw [List.flatMap_cons, if_pos hfirst.kind, hfirst.children]
      exact .cons ⟨rfl, rfl, Or.inr (Or.inl rfl), rfl⟩
        (.cons ⟨rfl, rfl, Or.inr (Or.inr rfl), rfl⟩ ih)

/-- The tokens of a node are those of the tag that it shows. -/
theorem WrittenTag.IsShownBy.tagTokens {tag : WrittenTag} {pos : Position}
    {node : Node} (hshows : tag.IsShownBy pos node) :
    List.Forall₂ RawToken.IsShownBy (tag.tokensAt pos).tokens
      node.tagTokens := by
  obtain ⟨statements, hchildren, hstated⟩ := hshows.children
  rw [Node.tagTokens, hchildren, List.flatMap_cons,
    if_neg (by simp [RawToken.toNode])]
  exact .cons ⟨rfl, rfl, Or.inl rfl, rfl⟩ (flatMap_of_isStatedBy hstated)

/-- A line table is exact.  It never looks for a line before the first, and
wherever the text can be cut, it counts the line feeds before the offset and the
characters after the last of them.  Places are in the order of their offsets,
and each place is decoded to the one offset that has it.  So the places of every
token of every node cut the text of the token out of the source. -/
theorem line_table_is_exact :
    (∀ (source : List Char) (offset : Nat),
      (LineTable.of source).slot offset ≠ .missing 0 ∧
        ((LineTable.of source).slot offset).lastIndex <
          (LineTable.of source).starts.length ∧
        (LineTable.of source).lineStart offset ≤
          min offset (byteCount source)) ∧
    (∀ before after : List Char,
      let table := LineTable.of (before ++ after)
      slice? (before ++ after) (table.lineStart (byteCount before))
            (byteCount before) =
          some (Text.lastLine before) ∧
        table.position (byteCount before) =
          ⟨1 + before.count '\n', 1 + (Text.lastLine before).length⟩) ∧
    (∀ (source : List Char) (d e : Nat), Text.IsBoundary source d →
      Text.IsBoundary source e →
      (((LineTable.of source).position d).Before
        ((LineTable.of source).position e) ↔ d < e)) ∧
    (∀ (source : List Char) (pos : Position) (offset : Nat),
      pos.offset? source = some offset ↔
        Text.IsBoundary source offset ∧
        (LineTable.of source).position offset = pos) ∧
    ∀ (wanted : List Tag) (source : String) (nodes : List Node),
      readConfiguration wanted source = .ok nodes →
        ∀ node ∈ nodes, ∀ token ∈ node.tagTokens,
          (token.kind = .tagName ∨ token.kind = .attributeName ∨
            token.kind = .attributeValue) ∧
            token.children = [] ∧ token.span.cut? source.toList =
              some token.text.toList := by
  refine ⟨LineTable.slot_ne_missing_zero, LineTable.position_eq_counts,
    fun _ _ _ => LineTable.before_iff_lt,
    fun _ _ _ => Text.offset?_eq_some_iff, ?_⟩
  intro wanted source nodes hread node hnode token htoken
  obtain ⟨tag, front, rest, hsource, _, hshows⟩ :=
    exists_writtenTag_of_mem_nodes hread hnode
  obtain ⟨raw, hraw, hshown⟩ := exists_of_mem_forall₂ hshows.tagTokens htoken
  have hstands := tag.standsIn_of_mem hsource hraw
  refine ⟨hshown.kind, hshown.children, ?_⟩
  rw [hshown.span, hshown.text, String.toList_ofList]
  exact hstands.cut?_eq

namespace TokenPlacesWitness

/-- A start tag over two lines, with a letter of two bytes before it and one in
a value. -/
def text : String := "<é>\n<forms\n name='é'/></é>"

/-- The nodes of the text. -/
def nodes : List Node := (readConfiguration [.forms] text).toOption.getD []

theorem readConfiguration_text :
    readConfiguration [.forms] text = .ok nodes := by
  have hread : (readConfiguration [.forms] text).toOption.isSome = true := by
    decide +kernel
  unfold nodes
  cases hresult : readConfiguration [.forms] text with
  | error e =>
      rw [hresult] at hread
      contradiction
  | ok found => rfl

/-- The value is cut out with its quotes, and the offset after it is the one
that its place has. -/
theorem value_is_cut_out :
    readConfiguration [.forms] text = .ok nodes ∧
      (∃ node ∈ nodes, ∃ token ∈ node.tagTokens,
        token.text = "'é'" ∧ token.span.cut? text.toList =
          some ['\'', 'é', '\'']) ∧
      Text.IsBoundary text.toList 4 ∧ Text.IsBoundary text.toList 22 ∧
      ((LineTable.of text.toList).position 4).Before
        ((LineTable.of text.toList).position 22) ∧
      (LineTable.of text.toList).position 22 = ⟨3, 10⟩ := by
  obtain ⟨_, _, hordered, hdecoded, hcut⟩ := line_table_is_exact
  have htexts : (nodes.flatMap Node.tagTokens).map Node.text =
      ["forms", "name", "'é'"] := by
    decide +kernel
  have hvalue : "'é'" ∈ (nodes.flatMap Node.tagTokens).map Node.text := by
    simp [htexts]
  obtain ⟨token, htoken, htext⟩ := List.mem_map.mp hvalue
  obtain ⟨node, hnode, htoken⟩ := List.mem_flatMap.mp htoken
  obtain ⟨_, _, htokenCut⟩ :=
    hcut [.forms] text nodes readConfiguration_text node hnode token htoken
  have hearly : (⟨1, 4⟩ : Position).offset? text.toList = some 4 := by
    decide +kernel
  have hlate : (⟨3, 10⟩ : Position).offset? text.toList = some 22 := by
    decide +kernel
  obtain ⟨hfirst, _⟩ := (hdecoded _ _ _).mp hearly
  obtain ⟨hsecond, hplace⟩ := (hdecoded _ _ _).mp hlate
  refine ⟨readConfiguration_text, ⟨node, hnode, token, htoken, htext, ?_⟩,
    hfirst, hsecond, (hordered _ _ _ hfirst hsecond).mpr (by decide), hplace⟩
  rw [htokenCut, htext]
  rfl

end TokenPlacesWitness

end WebConfigAudit
