import WebConfigAudit.Proofs.ConfigurationNodes
import WebConfigAudit.Proofs.DirectiveReading
import WebConfigAudit.Proofs.LineTable
/-!
Where directives and elements stand.  The directives are read line by line and
the elements are read through cursors, but both count lines as the table of the
text does, so that a directive covers the elements that people would take it to
cover.
-/

namespace WebConfigAudit

open Text (Cursor EndsLine LineTable Position byteCount lineFeedsBetween slice?)

/-- A line of a source: only whole lines come before it, and a line feed comes
after it unless the source ends there.  A carriage return at its end belongs to
it. -/
structure Text.IsLine (source above line below : List Char) : Prop where
  split : source = above ++ line ++ below
  endsLine : EndsLine above
  unbroken : '\n' ∉ line
  stops : ∀ c ∈ below.head?, c = '\n'

/-- The directive is the one of a line of the source, and its comment opens at
the offset. -/
def Directive.StandsAt (source : List Char) (offset : Nat) (d : Directive) :
    Prop :=
  ∃ above line below, Text.IsLine source above line below ∧
    Directive.ofLine? line = some d ∧
    offset = byteCount (above ++ d.before)

namespace Directive

/-- What is read at or after a place is read where some comment opens. -/
theorem exists_of_readFrom? {passed cs : List Char} {d : Directive}
    (hread : readFrom? passed cs = some d) :
    ∃ skipped rest found, cs = skipped ++ rest ∧ readHere? rest = some found ∧
      d = { found with before := passed.reverse ++ skipped } := by
  induction cs generalizing passed with
  | nil => contradiction
  | cons c cs ih =>
      rw [readFrom?] at hread
      cases hhere : readHere? (c :: cs) with
      | some found =>
          rw [hhere] at hread
          cases hread
          exact ⟨[], c :: cs, found, rfl, hhere, by simp⟩
      | none =>
          rw [hhere] at hread
          obtain ⟨skipped, rest, found, rfl, hfound, rfl⟩ := ih hread
          exact ⟨c :: skipped, rest, found, rfl, hfound, by simp⟩

/-- The text before a directive ends where its comment opens. -/
theorem exists_of_ofLine? {line : List Char} {d : Directive}
    (hread : ofLine? line = some d) :
    ∃ rest, line = d.before ++ opening ++ rest := by
  obtain ⟨skipped, rest, found, rfl, hfound, rfl⟩ := exists_of_readFrom? hread
  obtain ⟨gap, inside, rfl, _⟩ := exists_of_readHere? hfound
  exact ⟨gap ++ marker ++ inside, by simp⟩

end Directive

section Lines

variable {file : String} {s : Suppression} {source above line below : List Char}

/-- Proof by the lines of a text. -/
theorem lines_induction {P : List Char → Prop}
    (last : ∀ line, '\n' ∉ line → P line)
    (more : ∀ line rest, '\n' ∉ line → P rest → P (line ++ '\n' :: rest))
    (cs : List Char) : P cs := by
  have hall (line : List Char) (hline : '\n' ∉ line) : P (line ++ cs) := by
    induction cs generalizing line with
    | nil => simpa using last line hline
    | cons c cs ih =>
        by_cases hc : c = '\n'
        · rw [hc]
          exact more line cs hline (ih [] (by simp))
        · have hnext := ih (line ++ [c]) (by simp [hline, Ne.symm hc])
          rwa [List.append_assoc, List.singleton_append] at hnext
  exact hall [] (by simp)

theorem endsLine_append_iff (line rest : List Char) :
    EndsLine (line ++ '\n' :: rest) ↔ EndsLine rest := by
  rcases rest.eq_nil_or_concat with rfl | ⟨front, c, rfl⟩
  · simp [EndsLine]
  · have hsplit : line ++ '\n' :: (front ++ [c]) =
        (line ++ '\n' :: front) ++ [c] := by simp
    rw [List.concat_eq_append, hsplit, Text.endsLine_concat_iff,
      Text.endsLine_concat_iff]

theorem count_append_lineFeed (hline : '\n' ∉ line) (rest : List Char) :
    (line ++ '\n' :: rest).count '\n' = rest.count '\n' + 1 := by
  rw [List.count_append, List.count_eq_zero.mpr hline, List.count_cons_self,
    Nat.zero_add]

/-- Whole lines are read on their own, and what comes after them with the number
it has there. -/
theorem suppressionsFrom_above (file : String) (number : Nat)
    (habove : EndsLine above) (rest : List Char) :
    suppressionsFrom file number (above ++ rest) =
      suppressionsFrom file number above ++
        suppressionsFrom file (number + above.count '\n') rest := by
  induction above using lines_induction generalizing number with
  | last line hline =>
      rcases habove.eq_nil_or_concat with rfl | ⟨front, rfl⟩
      · rfl
      · simp at hline
  | more line lines hline ih =>
      rw [endsLine_append_iff] at habove
      rw [List.append_assoc, List.cons_append,
        suppressionsFrom_append file number hline,
        suppressionsFrom_append file number hline, ih (number + 1) habove,
        count_append_lineFeed hline, List.append_assoc, Nat.add_assoc,
        Nat.add_comm 1]

/-- A text is read as the lines above one of its lines, that line, and the lines
below. -/
theorem suppressionsFrom_of_isLine {number : Nat}
    (hline : Text.IsLine source above line below) :
    suppressionsFrom file number source =
      suppressionsFrom file number above ++
        (lineSuppression? file (number + above.count '\n') line).toList ++
        suppressionsFrom file (number + above.count '\n' + 1)
          (below.drop 1) := by
  rw [hline.split, List.append_assoc,
    suppressionsFrom_above file number hline.endsLine, List.append_assoc,
    List.append_cancel_left_eq]
  cases below with
  | nil =>
      have hnothing :
          suppressionsFrom file (number + above.count '\n' + 1) [] = [] := rfl
      rw [List.append_nil, suppressionsFrom_of_single file _ hline.unbroken,
        List.drop_nil, hnothing, List.append_nil]
  | cons c rest =>
      obtain rfl : c = '\n' := hline.stops c rfl
      exact suppressionsFrom_append file _ hline.unbroken rest

theorem readSuppressions_of_isLine {source : String}
    (hline : Text.IsLine source.toList above line below) :
    readSuppressions file source =
      suppressionsFrom file 1 above ++
        (lineSuppression? file (1 + above.count '\n') line).toList ++
        suppressionsFrom file (1 + above.count '\n' + 1) (below.drop 1) :=
  suppressionsFrom_of_isLine hline

theorem mem_suppressionsFrom_of_isLine {number : Nat}
    (hline : Text.IsLine source above line below)
    (hs : lineSuppression? file (number + above.count '\n') line = some s) :
    s ∈ suppressionsFrom file number source := by
  rw [suppressionsFrom_of_isLine hline, hs]
  exact List.mem_append_left _
    (List.mem_append_right _ (List.mem_singleton.mpr rfl))

theorem exists_isLine_of_mem_suppressionsFrom {number : Nat}
    (hs : s ∈ suppressionsFrom file number source) :
    ∃ above line below, Text.IsLine source above line below ∧
      lineSuppression? file (number + above.count '\n') line = some s := by
  induction source using lines_induction generalizing number with
  | last line hline =>
      rw [suppressionsFrom_of_single file number hline, Option.mem_toList] at hs
      exact ⟨[], line, [], ⟨by simp, by simp [EndsLine], hline, by simp⟩, hs⟩
  | more line rest hline ih =>
      rw [suppressionsFrom_append file number hline, List.mem_append,
        Option.mem_toList] at hs
      rcases hs with hs | hs
      · exact ⟨[], line, '\n' :: rest,
          ⟨by simp, by simp [EndsLine], hline, by simp⟩, hs⟩
      · obtain ⟨above, other, below, hother, hs⟩ := ih hs
        refine ⟨line ++ '\n' :: above, other, below,
          ⟨?_, ?_, hother.unbroken, hother.stops⟩, ?_⟩
        · simp [hother.split]
        · rw [endsLine_append_iff]
          exact hother.endsLine
        · rw [count_append_lineFeed hline, Nat.add_comm _ 1, ← Nat.add_assoc]
          exact hs

/-- The table gives every place on a line the number of line feeds before the
line. -/
theorem line_position_of_isLine {before rest : List Char}
    (hline : Text.IsLine source above (before ++ rest) below) :
    ((LineTable.of source).position (byteCount (above ++ before))).line =
      1 + above.count '\n' := by
  have hfront : above ++ before <+: source :=
    ⟨rest ++ below, by simp [hline.split]⟩
  have hbefore : '\n' ∉ before := fun hmem =>
    hline.unbroken (List.mem_append_left _ hmem)
  rw [LineTable.line_position hfront, List.count_append,
    List.count_eq_zero.mpr hbefore, Nat.add_comm]
  rfl

end Lines

section Elements

variable {wanted : List Tag} {source : String} {nodes : List Node} {node : Node}

/-- A node that shows a written tag is located where the name of the tag
begins. -/
theorem WrittenTag.IsShownBy.location_start {tag : WrittenTag} {pos : Position}
    (hshown : tag.IsShownBy pos node) :
    node.location.start = pos.after '<' := by
  obtain ⟨statements, hchildren, hstated⟩ := hshown.children
  have hstatements :
      statements.reverse.find? (fun child => child.kind == .tagName) =
        none := by
    rw [List.find?_eq_none]
    intro statement hmem
    obtain ⟨_, _, hstates⟩ :=
      exists_of_mem_forall₂ hstated (List.mem_reverse.mp hmem)
    rw [hstates.kind]
    decide
  have hname :
      node.tagName? = some ((tag.tokensAt pos).name.toNode .tagName) := by
    rw [Node.tagName?, hchildren, List.reverse_cons, List.find?_append,
      hstatements]
    rfl
  rw [Node.location, hname]
  rfl

/-- Every node starts where the text has an opening bracket, and is located on
the line of the bracket. -/
theorem exists_bracket_of_mem_nodes
    (hread : readConfiguration wanted source = .ok nodes)
    (hnode : node ∈ nodes) :
    ∃ front rest, source.toList = front ++ '<' :: rest ∧
      node.span.start = Position.start.advance front ∧
      node.location.start.line = node.span.start.line := by
  obtain ⟨tag, front, rest, hsource, hstart, hshown⟩ :=
    exists_writtenTag_of_mem_nodes hread hnode
  refine ⟨front, tag.name ++ tag.afterName ++ rest, ?_, hstart, ?_⟩
  · rw [hsource, WrittenTag.chars]
    simp
  · rw [hshown.location_start, hstart]
    rfl

end Elements

section Cover

variable {d : Directive} {file : String} {number line : Nat}

theorem Suppression.applies_eq_covers {s : Suppression} {v : Violation}
    (hfile : v.file = s.file) (hnames : s.names v.rule = true) :
    s.applies v = s.covers v.span.start.line := by
  simp [applies, hfile, hnames]

theorem Directive.covers_iff_of_line (hscope : d.scope = .line) :
    (d.suppression file number).covers line = true ↔ line = number := by
  simp [Suppression.covers, suppression, hscope]

theorem Directive.covers_iff_of_nextLine (hscope : d.scope = .nextLine) :
    (d.suppression file number).covers line = true ↔ line = number + 1 := by
  simp [Suppression.covers, suppression, hscope]

end Cover

theorem Directive.StandsAt.exists_front {source : List Char} {offset : Nat}
    {d : Directive} (hstands : d.StandsAt source offset) :
    ∃ front rest, source = front ++ opening ++ rest ∧
      offset = byteCount front := by
  obtain ⟨above, line, below, hline, hread, rfl⟩ := hstands
  obtain ⟨rest, rfl⟩ := exists_of_ofLine? hread
  exact ⟨above ++ d.before, rest ++ below, by simp [hline.split], rfl⟩

theorem Directive.StandsAt.exists_prefix {source : List Char} {offset : Nat}
    {d : Directive} (hstands : d.StandsAt source offset) :
    ∃ front, front <+: source ∧ offset = byteCount front := by
  obtain ⟨front, rest, hsource, hoffset⟩ := hstands.exists_front
  exact ⟨front, ⟨opening ++ rest, by rw [hsource, List.append_assoc]⟩, hoffset⟩

/-- The directives of a text are read with the lines that the table gives for
the offsets of their comments. -/
theorem mem_readSuppressions_iff (file source : String) (s : Suppression) :
    s ∈ readSuppressions file source ↔
      ∃ d offset, Directive.StandsAt source.toList offset d ∧
        s = d.suppression file
          ((LineTable.of source.toList).position offset).line := by
  constructor
  · intro hs
    obtain ⟨above, line, below, hline, hs⟩ :=
      exists_isLine_of_mem_suppressionsFrom hs
    obtain ⟨d, hread, rfl⟩ := Option.map_eq_some_iff.mp hs
    refine ⟨d, _, ⟨above, line, below, hline, hread, rfl⟩, ?_⟩
    obtain ⟨rest, hsplit⟩ := Directive.exists_of_ofLine? hread
    rw [hsplit, List.append_assoc] at hline
    rw [line_position_of_isLine hline]
  · rintro ⟨d, offset, ⟨above, line, below, hline, hread, rfl⟩, rfl⟩
    refine mem_suppressionsFrom_of_isLine hline ?_
    rw [lineSuppression?, hread, Option.map_some]
    obtain ⟨rest, hsplit⟩ := Directive.exists_of_ofLine? hread
    rw [hsplit, List.append_assoc] at hline
    rw [line_position_of_isLine hline]

section Agreement

variable {d : Directive} {file source : String} {offset : Nat}
  {front rest : List Char}

theorem slice?_of_standsAt (hstands : d.StandsAt source.toList offset) :
    slice? source.toList offset (offset + 4) = some Directive.opening := by
  obtain ⟨front, rest, hsource, rfl⟩ := hstands.exists_front
  have hlength : byteCount Directive.opening = 4 := by decide
  rw [hsource, ← hlength]
  exact Text.slice?_append front Directive.opening rest

theorem slice?_bracket (hsource : source.toList = front ++ '<' :: rest) :
    slice? source.toList (byteCount front) (byteCount front + 1) =
      some ['<'] := by
  have hlength : byteCount ['<'] = 1 := by decide
  rw [hsource, ← hlength, ← List.singleton_append, ← List.append_assoc]
  exact Text.slice?_append front ['<'] rest

/-- A directive for its own line covers what stands on the line of its
comment. -/
theorem covers_iff_lineFeedsBetween (hstands : d.StandsAt source.toList offset)
    (hfront : front <+: source.toList) (hscope : d.scope = .line) :
    (d.suppression file
      ((LineTable.of source.toList).position offset).line).covers
        ((LineTable.of source.toList).position (byteCount front)).line = true ↔
      lineFeedsBetween source.toList offset (byteCount front) = [] := by
  obtain ⟨before, hbefore, rfl⟩ := hstands.exists_prefix
  rw [Directive.covers_iff_of_line hscope, LineTable.line_position hbefore,
    LineTable.line_position hfront, Nat.add_right_cancel_iff]
  exact Text.count_eq_iff hbefore hfront

/-- A directive for the next line covers what stands on the line after that of
its comment. -/
theorem covers_iff_length_lineFeedsBetween
    (hstands : d.StandsAt source.toList offset)
    (hfront : front <+: source.toList) (hscope : d.scope = .nextLine) :
    (d.suppression file
      ((LineTable.of source.toList).position offset).line).covers
        ((LineTable.of source.toList).position (byteCount front)).line = true ↔
      offset < byteCount front ∧
        (lineFeedsBetween source.toList offset (byteCount front)).length =
          1 := by
  obtain ⟨before, hbefore, rfl⟩ := hstands.exists_prefix
  rw [Directive.covers_iff_of_nextLine hscope, LineTable.line_position hbefore,
    LineTable.line_position hfront, Nat.add_right_cancel_iff]
  exact Text.count_eq_succ_iff hbefore hfront

end Agreement

/-- Directives and elements count lines alike.  The suppressions of a text have
the lines that its table gives for the offsets at which their comments open.  An
element starts at an offset too, and a directive that names the rule applies to
a violation at the element just if no line feed lies between the two offsets or,
for a directive for the next line, if the comment comes first and one line feed
lies between. -/
theorem directives_cover_elements_by_line (file source : String) :
    (∀ s, s ∈ readSuppressions file source ↔
      ∃ d offset, Directive.StandsAt source.toList offset d ∧
        s = d.suppression file
          ((LineTable.of source.toList).position offset).line) ∧
    (∀ d offset, Directive.StandsAt source.toList offset d →
      slice? source.toList offset (offset + 4) = some Directive.opening) ∧
    ∀ wanted nodes, readConfiguration wanted source = .ok nodes →
        ∀ node ∈ nodes, ∃ start,
      slice? source.toList start (start + 1) = some ['<'] ∧
      node.span.start = (LineTable.of source.toList).position start ∧
      ∀ d offset, Directive.StandsAt source.toList offset d →
        let s :=
          d.suppression file ((LineTable.of source.toList).position offset).line
        ∀ v : Violation, v.file = file → v.span = node.location →
          s.names v.rule = true →
          (s.scope = .line →
            (s.applies v = true ↔
              lineFeedsBetween source.toList offset start = [])) ∧
          (s.scope = .nextLine →
            (s.applies v = true ↔
              offset < start ∧
              (lineFeedsBetween source.toList offset start).length = 1)) := by
  refine ⟨mem_readSuppressions_iff file source,
    fun d offset => slice?_of_standsAt, ?_⟩
  intro wanted nodes hread node hnode
  obtain ⟨front, rest, hsource, hstart, hlocation⟩ :=
    exists_bracket_of_mem_nodes hread hnode
  have hfront : front <+: source.toList := ⟨'<' :: rest, hsource.symm⟩
  have hposition : node.span.start =
      (LineTable.of source.toList).position (byteCount front) := by
    rw [hsource, LineTable.position_byteCount, hstart]
  refine ⟨byteCount front, slice?_bracket hsource, hposition, ?_⟩
  intro d offset hstands s v hfile hspan hnames
  have happlies : s.applies v =
      s.covers ((LineTable.of source.toList).position
        (byteCount front)).line := by
    rw [Suppression.applies_eq_covers hfile hnames, hspan, hlocation, hposition]
  rw [happlies]
  exact ⟨covers_iff_lineFeedsBetween hstands hfront,
    covers_iff_length_lineFeedsBetween hstands hfront⟩

namespace DirectivePlacesWitness

/-- A mark of the byte order, and a carriage return before the line feed. -/
def firstLine : List Char := "\ufeff<web>\r".toList

/-- A directive alone on its line. -/
def secondLine : List Char := "<!-- webcfg-guard:ignore Trace -->\r".toList

/-- A directive behind the element, and a carriage return that ends no line. -/
def thirdLine : List Char :=
  "<trace/><!--webcfg-guard:ignore * - old -->\r</web>".toList

def text : String :=
  String.ofList (firstLine ++ '\n' :: secondLine ++ '\n' :: thirdLine)

def alone : Directive := ⟨[], .ignore, "Trace".toList, none⟩

def behind : Directive := ⟨"<trace/>".toList, .ignore, ['*'], some "old".toList⟩

theorem ofText_text :
    Cursor.ofText text = ⟨firstLine ++ '\n' :: secondLine ++ '\n' :: thirdLine,
      Position.start⟩ := by
  rw [Cursor.ofText, text, String.toList_ofList]

theorem alone_standsAt : alone.StandsAt text.toList 10 :=
  ⟨firstLine ++ ['\n'], secondLine, '\n' :: thirdLine,
    ⟨by simp [text], by simp [EndsLine], by decide +kernel, by simp⟩,
    by decide +kernel, by decide +kernel⟩

theorem behind_standsAt : behind.StandsAt text.toList 54 :=
  ⟨(firstLine ++ '\n' :: secondLine) ++ ['\n'], thirdLine, [],
    ⟨by simp [text], by rw [Text.endsLine_concat_iff],
      by decide +kernel, by simp⟩,
    by decide +kernel, by decide +kernel⟩

theorem exists_node : ∃ node, readConfiguration [.trace] text = .ok [node] := by
  have hlength : (readConfiguration [.trace] text).toOption.map List.length =
      some 1 := by
    rw [readConfiguration, ofText_text]
    decide +kernel
  obtain ⟨nodes, hnodes, hlength⟩ := Option.map_eq_some_iff.mp hlength
  obtain ⟨node, rfl⟩ := List.length_eq_one_iff.mp hlength
  exact ⟨node, eq_ok_of_toOption hnodes⟩

/-- What a rule has against a node. -/
def violation (node : Node) : Violation :=
  ⟨"Web.config", "TRACE", node.location, "tracing"⟩

theorem both_directives_cover_trace :
    alone.StandsAt text.toList 10 ∧ alone.scope = .nextLine ∧
    behind.StandsAt text.toList 54 ∧ behind.scope = .line ∧
    ∃ node start, readConfiguration [.trace] text = .ok [node] ∧
      node.span.start = (LineTable.of text.toList).position start ∧
      ((alone.suppression "Web.config" 2).applies (violation node) = true ↔
        10 < start ∧ (lineFeedsBetween text.toList 10 start).length = 1) ∧
      ((behind.suppression "Web.config" 3).applies (violation node) = true ↔
        lineFeedsBetween text.toList 54 start = []) := by
  have hfirst : ((LineTable.of text.toList).position 10).line = 2 := by
    rw [text, String.toList_ofList]
    decide +kernel
  have hsecond : ((LineTable.of text.toList).position 54).line = 3 := by
    rw [text, String.toList_ofList]
    decide +kernel
  have hfirstNames : (alone.suppression "Web.config" 2).names "TRACE" =
      true := by decide +kernel
  have hsecondNames : (behind.suppression "Web.config" 3).names "TRACE" =
      true := by decide +kernel
  obtain ⟨node, hread⟩ := exists_node
  obtain ⟨_, _, hcover⟩ := directives_cover_elements_by_line "Web.config" text
  obtain ⟨start, _, hstart, hcover⟩ :=
    hcover [.trace] [node] hread node List.mem_cons_self
  have halone := hcover alone 10 alone_standsAt
  have hbehind := hcover behind 54 behind_standsAt
  rw [hfirst] at halone
  rw [hsecond] at hbehind
  exact ⟨alone_standsAt, rfl, behind_standsAt, rfl, node, start, hread, hstart,
    (halone (violation node) rfl rfl hfirstNames).2 rfl,
    (hbehind (violation node) rfl rfl hsecondNames).1 rfl⟩

example :
    (readConfiguration [.trace] text).toOption.map (List.map fun node =>
      ((alone.suppression "Web.config" 2).applies (violation node),
        (behind.suppression "Web.config" 3).applies (violation node))) =
      some [(true, true)] := by
  rw [readConfiguration, ofText_text]
  decide +kernel

end DirectivePlacesWitness

end WebConfigAudit
