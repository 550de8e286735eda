import WebConfigAudit.Proofs.DirectivePlaces
import WebConfigAudit.Proofs.EntityBalance
import WebConfigAudit.Proofs.FileOutcomes
import WebConfigAudit.Report.Sarif
/-!
The ranges that are reported.  They begin at the name of an element and end
where the element ends, so they run forward as long as elements do.  The text of
an entity may end an element that it did not start, and then the range of that
element runs backward, to the place where the entity is declared.
-/

namespace WebConfigAudit

open Text (Cursor Position)

section Reports

variable {rules : RuleSet} {nodes : List Node} {file : String} {v : Violation}

theorem Evidence.mem_of_verdict {rule : CompoundRule} {node : Node}
    (hverdict : (Evidence.after rule {} nodes).verdict = some node) :
    node ∈ nodes := by
  unfold verdict at hverdict
  split at hverdict
  · contradiction
  · rw [after_anchor, Option.or_none] at hverdict
    exact List.mem_of_mem_filter (List.mem_of_getLast? hverdict)

/-- Every report is located where some node is. -/
theorem RuleSet.exists_node_of_mem_reports (hv : v ∈ rules.reports file nodes) :
    ∃ node ∈ nodes, v.span = node.location := by
  rcases List.mem_append.mp hv with hv | hv
  · obtain ⟨node, hnode, hv⟩ := List.mem_flatMap.mp hv
    obtain ⟨rule, _, hv⟩ := List.mem_filterMap.mp hv
    unfold ElementRule.report? at hv
    split at hv
    · cases hv
      exact ⟨node, hnode, rfl⟩
    · contradiction
  · obtain ⟨rule, _, hv⟩ := List.mem_filterMap.mp hv
    obtain ⟨node, hverdict, rfl⟩ := Option.map_eq_some_iff.mp hv
    exact ⟨node, Evidence.mem_of_verdict hverdict, rfl⟩

end Reports

/-- A place of a text, whose lines and columns count from one. -/
def Text.Position.CountsFromOne (pos : Position) : Prop :=
  1 ≤ pos.line ∧ 1 ≤ pos.column

theorem Text.Position.CountsFromOne.advance {pos : Position}
    (hpos : pos.CountsFromOne) (cs : List Char) :
    (pos.advance cs).CountsFromOne := by
  induction cs generalizing pos with
  | nil => exact hpos
  | cons c cs ih =>
      refine ih ?_
      unfold after
      split
      · exact ⟨Nat.le_add_left 1 _, Nat.le_refl 1⟩
      · exact ⟨hpos.1, Nat.le_add_left 1 _⟩

theorem Text.Position.countsFromOne_start : Position.start.CountsFromOne :=
  ⟨Nat.le_refl 1, Nat.le_refl 1⟩

theorem positionFromOne_of_countsFromOne {pos : Position}
    (hpos : pos.CountsFromOne) : positionFromOne pos = pos := by
  rw [positionFromOne, Nat.max_eq_left hpos.1, Nat.max_eq_left hpos.2]

theorem Analyzer.mem_reports_of_mem_analyzeSource {a : Analyzer}
    {file source : String} {nodes : List Node}
    (hnodes : readConfiguration a.rules.tags source = .ok nodes) {v : Violation}
    (hv : v ∈ (a.analyzeSource file source []).2) :
    v ∈ a.rules.reports file nodes := by
  cases hreader : a.hasReader with
  | false =>
      rw [analyzeSource_of_noReader hreader] at hv
      contradiction
  | true =>
      rcases analyzeSource_cases hreader file source with
        ⟨_, herror, _⟩ | ⟨found, hfound, hdone⟩
      · rw [hnodes] at herror
        contradiction
      · rw [hnodes, Except.ok.injEq] at hfound
        rwa [hdone, ← hfound] at hv

/-- The range of a node in a source.  It goes from an opening bracket to the
place behind a closing one, the tokens follow the opening bracket in order, and
the range ends behind all of them unless it runs backward. -/
structure Node.IsRangedIn (source : List Char) (node : Node) : Prop where
  opens : ∃ before after, source = before ++ '<' :: after ∧
    node.span.start = Position.start.advance before
  closes : ∃ before after, source = before ++ '>' :: after ∧
    node.span.stop = Position.start.advance (before ++ ['>'])
  ordered : (node.span.start :: node.tokenBounds).Pairwise Position.Before
  encloses : node.span.start.Before node.span.stop ↔
    (node.span.start :: node.tokenBounds ++ [node.span.stop]).Pairwise
      Position.Before

/-- The place of a violation: it begins on the line of the node's opening
bracket, one column after it, and ends where the node ends. -/
structure Violation.IsLocatedAt (v : Violation) (node : Node) : Prop where
  start : v.span.start = ⟨node.span.start.line, node.span.start.column + 1⟩
  stop : v.span.stop = node.span.stop
  startCounts : v.span.start.CountsFromOne
  stopCounts : v.span.stop.CountsFromOne
  forward : v.span.start.Before v.span.stop ↔
    node.span.start.Before node.span.stop

/-- Two tags at the front of one text have the same tokens, those that the
scanner reads there. -/
theorem WrittenTag.tokensAt_eq_of_append_eq {tag other : WrittenTag}
    {rest rest' : List Char} (hsame : tag.chars ++ rest = other.chars ++ rest')
    (pos : Position) : tag.tokensAt pos = other.tokensAt pos := by
  have hscan := scanStartTag_append tag rest pos
  rw [hsame, scanStartTag_append other rest' pos] at hscan
  exact (Except.ok.inj hscan).symm

section Nodes

variable {wanted : List Tag} {source : String} {nodes : List Node} {node : Node}
  {element : Xml.Element}

/-- The node of an element has its range.  A place that lies behind the start
tag lies behind all tokens of it. -/
theorem Xml.Element.IsShownBy.isRangedIn
    (hshown : element.IsShownBy wanted node)
    (hstarts : Xml.StartsIn (Cursor.ofText source) element.name element.start)
    (hrange : Xml.IsRangeIn (Cursor.ofText source) element.start element.stop) :
    node.IsRangedIn source.toList := by
  obtain ⟨tag, inside, hrest, _, htag⟩ := hshown.written
  obtain ⟨before, after, hsource, hpos⟩ := hstarts.1
  obtain ⟨behind, written, ⟨hpasses, _⟩, houtside⟩ := hrange.outside
  have hsame :=
    WrittenTag.tokensAt_eq_of_append_eq (hrest.symm.trans hpasses.rest)
      element.start.pos
  have hordered := written.pairwise_tokensAt element.start.pos
  rw [← hsame, ← htag.tokenBounds_eq, ← hpasses.pos] at hordered
  obtain ⟨htokens, _, hwithin⟩ := List.pairwise_append.mp hordered
  have hspan : node.span = ⟨element.start.pos, element.stop⟩ := hshown.span
  refine ⟨?_, ?_, ?_, ?_⟩
  · refine ⟨before, tag.name ++ tag.afterName ++ inside ++ after, ?_,
      by rw [hspan]; exact hpos⟩
    have htext : source.toList = before ++ element.start.rest ++ after :=
      hsource
    rw [htext, hrest, WrittenTag.chars]
    simp
  · rw [hspan]
    exact hrange.closes
  · rw [hspan]
    exact htokens
  · rw [hspan]
    constructor
    · intro hforward
      refine List.pairwise_append.mpr ⟨htokens, List.pairwise_singleton _ _, ?_⟩
      intro place hplace stop hstop
      rw [List.mem_singleton.mp hstop]
      have hbefore := hwithin place hplace behind.pos List.mem_cons_self
      exact hbefore.trans_not_before (houtside hforward)
    · intro hall
      exact (List.pairwise_append.mp hall).2.2 _ List.mem_cons_self _
        List.mem_cons_self

theorem Violation.isLocatedAt {v : Violation} {tag : WrittenTag}
    (hshown : tag.IsShownBy node.span.start node)
    (hranged : node.IsRangedIn source.toList) (hv : v.span = node.location) :
    v.IsLocatedAt node := by
  obtain ⟨before, _, _, hopens⟩ := hranged.opens
  obtain ⟨before', _, _, hcloses⟩ := hranged.closes
  have hname : v.span.start = node.span.start.after '<' := by
    rw [hv, hshown.location_start]
  have hstop : v.span.stop = node.span.stop := by
    rw [hv, Node.location]
    split <;> rfl
  have hfirst : v.span.start ∈ node.tokenBounds := by
    rw [hname, hshown.tokenBounds_eq]
    exact List.mem_cons_self
  refine ⟨hname, hstop, ?_, ?_, ?_⟩
  · rw [hname, hopens]
    exact (Position.countsFromOne_start.advance before).advance ['<']
  · rw [hstop, hcloses]
    exact Position.countsFromOne_start.advance _
  · rw [hstop]
    constructor
    · intro hforward
      rw [hname] at hforward
      exact (Position.before_after _ '<').trans hforward
    · intro hforward
      have hall := hranged.encloses.mp hforward
      exact (List.pairwise_append.mp hall).2.2 _
        (List.mem_cons_of_mem _ hfirst) _ List.mem_cons_self

end Nodes

/-- No number of a place that counts from one is raised in the interchange
format. -/
theorem SarifLog.map_region_results {result : AuditResult}
    (hcounts : ∀ v ∈ result.violations, v.span.start.CountsFromOne ∧
      v.span.stop.CountsFromOne)
    (base : Path) (rules : RuleSet) :
    (SarifLog.of base result rules).results.map SarifResult.region =
      result.violations.map Violation.span := by
  rw [SarifLog.of, List.map_map]
  refine List.map_congr_left fun v hv => ?_
  obtain ⟨hstart, hstop⟩ := hcounts v hv
  have hregion :
      Span.mk (positionFromOne v.span.start) (positionFromOne v.span.stop) =
        v.span := by
    rw [positionFromOne_of_countsFromOne hstart,
      positionFromOne_of_countsFromOne hstop]
  exact hregion

/-- The ranges of violations, for every text that is a document.  The nodes are
those of the elements of wanted kinds and have their ranges, with all tokens
within unless the range runs backward.  Every violation is located at a node, so
no number of it is ever raised to one in the interchange format.  Ranges run
forward as long as every entity that elements come out of ends just the elements
that it starts, and where no elements come out of entities, nodes start in
order. -/
theorem violations_are_located (a : Analyzer) {source : String}
    {elements : List Xml.Element}
    (helements : Xml.elements? (Cursor.ofText source) = some elements)
    (file : String) :
    ∃ nodes, readConfiguration a.rules.tags source = .ok nodes ∧
      List.Forall₂ (Xml.Element.IsShownBy a.rules.tags)
        (elements.filter (Xml.Element.isWanted a.rules.tags)) nodes ∧
      (∀ node ∈ nodes, node.IsRangedIn source.toList) ∧
      (∀ v ∈ (a.analyzeSource file source []).2, ∃ node ∈ nodes,
        v.IsLocatedAt node) ∧
      (∀ (base : Path) (result : AuditResult) (rules : RuleSet),
        (∀ v ∈ result.violations, v ∈ (a.analyzeSource file source []).2) →
          (SarifLog.of base result rules).results.map SarifResult.region =
            result.violations.map Violation.span) ∧
      (Xml.EntitiesCloseOwn (Cursor.ofText source) elements →
        ∀ node ∈ nodes, node.span.start.Before node.span.stop) ∧
      (Xml.NoneExpanded (Cursor.ofText source) elements →
        (∀ node ∈ nodes, node.span.start.Before node.span.stop) ∧
          nodes.Pairwise fun node other => node.span.start.Before
            other.span.start) := by
  have hstarts := Xml.startsIn_of_elements? helements
  have hranges := Xml.isRangeIn_of_elements? helements
  obtain ⟨hread, _, _, hsame⟩ :=
    readConfiguration_shows_elements findsStartTags_elements?
  obtain ⟨nodes, hnodes, hshown⟩ := hread a.rules.tags source elements helements
  rw [← hsame] at hnodes
  have helement {node : Node} (hnode : node ∈ nodes) :
      ∃ element ∈ elements, element.IsShownBy a.rules.tags node := by
    obtain ⟨element, hmem, hshows⟩ := exists_of_mem_forall₂ hshown hnode
    exact ⟨element, List.mem_of_mem_filter hmem, hshows⟩
  have hranged : ∀ node ∈ nodes, node.IsRangedIn source.toList := by
    intro node hnode
    obtain ⟨element, hmem, hshows⟩ := helement hnode
    exact hshows.isRangedIn (hstarts element hmem) (hranges element hmem)
  have hlocated : ∀ v ∈ (a.analyzeSource file source []).2, ∃ node ∈ nodes,
      v.IsLocatedAt node := by
    intro v hv
    have hreported := Analyzer.mem_reports_of_mem_analyzeSource hnodes hv
    obtain ⟨node, hnode, hspan⟩ := RuleSet.exists_node_of_mem_reports hreported
    obtain ⟨element, _, hshows⟩ := helement hnode
    obtain ⟨tag, _, _, _, htag⟩ := hshows.written
    have hplace : element.start.pos = node.span.start :=
      (congrArg Span.start hshows.span).symm
    rw [hplace] at htag
    exact ⟨node, hnode, Violation.isLocatedAt htag (hranged node hnode) hspan⟩
  have hforward (hclose : Xml.EntitiesCloseOwn (Cursor.ofText source)
      elements) :
      ∀ node ∈ nodes, node.span.start.Before node.span.stop := by
    intro node hnode
    obtain ⟨element, hmem, hshows⟩ := helement hnode
    rw [hshows.span]
    exact Xml.before_of_entitiesCloseOwn helements hclose element hmem
  refine ⟨nodes, hnodes, hshown, hranged, hlocated, ?_, hforward, fun hnone =>
    ⟨hforward hnone.entitiesCloseOwn, ?_⟩⟩
  · intro base result rules hviolations
    refine SarifLog.map_region_results (fun v hv => ?_) base rules
    obtain ⟨_, _, hplaced⟩ := hlocated v (hviolations v hv)
    exact ⟨hplaced.startCounts, hplaced.stopCounts⟩
  · have hplaces : (elements.filter (Xml.Element.isWanted a.rules.tags)).map
          (·.start.pos) =
        nodes.map (·.span.start) :=
      (map_eq_of_forall₂ (fun _ _ hshows => congrArg Span.start hshows.span)
        hshown).symm
    have hordered := (Xml.pairwise_start_of_noneExpanded helements hnone).filter
      (Xml.Element.isWanted a.rules.tags)
    rw [← List.pairwise_map, hplaces] at hordered
    exact List.pairwise_map.mp hordered

namespace ProperRangesWitness

def analyzer : Analyzer := { rules := Builtin.rules, hasReader := true }

/-- Sessions that are too long, with a letter of two bytes before them and a
start tag over two lines. -/
def plain : String :=
  "<é><sessionState\n timeout='60'>\n</sessionState><sessionState timeout='90'/></é>"

/-- Such a session comes out of an entity. -/
def expanded : String :=
  "<!DOCTYPE web [<!ENTITY e '<sessionState timeout=\"60\"></sessionState>'>]>\n<web>&e;</web>"

/-- The elements of a text. -/
def elementsIn (text : String) : List Xml.Element :=
  (Xml.elements? (Cursor.ofText text)).getD []

theorem elements?_eq (text : String)
    (hread : (Xml.elements? (Cursor.ofText text)).isSome = true) :
    Xml.elements? (Cursor.ofText text) = some (elementsIn text) := by
  obtain ⟨elements, helements⟩ := Option.isSome_iff_exists.mp hread
  rw [elementsIn, helements, Option.getD_some]

theorem noneExpanded_plain :
    Xml.NoneExpanded (Cursor.ofText plain) (elementsIn plain) := by
  have hnone : (Xml.readDocument (Cursor.ofText plain)).all
      (·.entities.isEmpty) = true := by
    decide +kernel
  intro document hdocument entity hentity
  rw [Option.mem_def.mp hdocument, Option.all_some, List.isEmpty_iff] at hnone
  rw [hnone] at hentity
  contradiction

theorem entitiesCloseOwn_expanded :
    Xml.EntitiesCloseOwn (Cursor.ofText expanded) (elementsIn expanded) := by
  have hclose : ((Xml.readDocument (Cursor.ofText expanded)).all fun document =>
      document.entities.all fun entity =>
        (Xml.readContent entity.value).all (Xml.closesOwn 0)) = true := by
    decide +kernel
  intro document hdocument entity hentity _ pieces hpieces
  rw [Option.mem_def.mp hdocument, Option.all_some] at hclose
  have hentityCloses := List.all_eq_true.mp hclose entity hentity
  rwa [Option.mem_def.mp hpieces, Option.all_some] at hentityCloses

/-- The ranges of both texts run forward, also that of the element that comes
out of the entity. -/
theorem ranges_run_forward :
    Xml.elements? (Cursor.ofText plain) = some (elementsIn plain) ∧
      Xml.NoneExpanded (Cursor.ofText plain) (elementsIn plain) ∧
      (analyzer.analyzeSource "Web.config" plain []).2.map Violation.span =
        [⟨⟨1, 5⟩, ⟨3, 16⟩⟩, ⟨⟨3, 17⟩, ⟨3, 44⟩⟩] ∧
      (∀ v ∈ (analyzer.analyzeSource "Web.config" plain []).2,
        v.span.start.Before v.span.stop) ∧
      Xml.elements? (Cursor.ofText expanded) = some (elementsIn expanded) ∧
      Xml.EntitiesCloseOwn (Cursor.ofText expanded) (elementsIn expanded) ∧
      (analyzer.analyzeSource "Web.config" expanded []).2.map Violation.span =
        [⟨⟨1, 29⟩, ⟨1, 70⟩⟩] ∧
      ∀ v ∈ (analyzer.analyzeSource "Web.config" expanded []).2,
        v.span.start.Before v.span.stop := by
  have hplain := elements?_eq plain (by decide +kernel)
  have hexpanded := elements?_eq expanded (by decide +kernel)
  obtain ⟨_, _, _, _, hlocated, _, _, hnone⟩ :=
    violations_are_located analyzer hplain "Web.config"
  obtain ⟨_, _, _, _, hlocated', _, hclose, _⟩ :=
    violations_are_located analyzer hexpanded "Web.config"
  refine ⟨hplain, noneExpanded_plain, by decide +kernel, fun v hv =>
      ?_, hexpanded,
    entitiesCloseOwn_expanded, by decide +kernel, fun v hv => ?_⟩
  · obtain ⟨node, hnode, hplaced⟩ := hlocated v hv
    exact hplaced.forward.mpr ((hnone noneExpanded_plain).1 node hnode)
  · obtain ⟨node, hnode, hplaced⟩ := hlocated' v hv
    exact hplaced.forward.mpr (hclose entitiesCloseOwn_expanded node hnode)

/-- The text of the entity ends the element around the reference. -/
def backward : String :=
  "<!DOCTYPE web [<!ENTITY e '<x/></sessionState>'>]>\n" ++
    "<web><sessionState timeout=\"60\">&e;</web>"

/-- The range goes from the opening bracket of the element to the place behind
the closing bracket of its end tag, but that place lies on the line before. -/
theorem range_runs_backward :
    ∃ v ∈ (analyzer.analyzeSource "Web.config" backward []).2,
      v.span = ⟨⟨2, 7⟩, ⟨1, 47⟩⟩ ∧ ¬ v.span.start.Before v.span.stop ∧
        Span.cut? backward.toList ⟨⟨2, 6⟩, ⟨2, 7⟩⟩ = some ['<'] ∧
        Span.cut? backward.toList ⟨⟨1, 46⟩, ⟨1, 47⟩⟩ = some ['>'] := by
  have hspans :
      (analyzer.analyzeSource "Web.config" backward []).2.map Violation.span =
        [⟨⟨2, 7⟩, ⟨1, 47⟩⟩] := by
    decide +kernel
  have hmem : (⟨⟨2, 7⟩, ⟨1, 47⟩⟩ : Span) ∈
      (analyzer.analyzeSource "Web.config" backward []).2.map
        Violation.span := by
    rw [hspans]
    exact List.mem_cons_self
  obtain ⟨v, hv, hspan⟩ := List.mem_map.mp hmem
  refine ⟨v, hv, hspan, ?_, by decide +kernel, by decide +kernel⟩
  rw [hspan]
  unfold Position.Before
  decide

end ProperRangesWitness

end WebConfigAudit
