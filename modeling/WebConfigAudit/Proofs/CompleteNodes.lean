import WebConfigAudit.Proofs.AttributeLookup
import WebConfigAudit.Proofs.ConfigurationNodes
import WebConfigAudit.Proofs.FileOutcomes
import WebConfigAudit.Proofs.ScannedTag
import WebConfigAudit.Rule.Builtin
/-!
No rule stumbles over a node that comes from a text.  The scanner lets no
attribute through without a name and a quoted value, so a look-up always comes
to an end, and with it every judgement that rests on look-ups.
-/

namespace WebConfigAudit

open Text (Cursor)

/-! Nodes that lack nothing -/

/-- An attribute statement with both its tokens, the name first and then the
quoted value. -/
structure Node.IsCompleteStatement (node : Node) : Prop where
  kind : node.kind = .statement
  tokens : ∃ name value, node.children = [name, value] ∧
    name.kind = .attributeName ∧
    value.kind = .attributeValue ∧ IsQuoted value.text.toList

/-- An element whose first child is the token of its name, and whose other
children are complete attribute statements. -/
structure Node.IsComplete (node : Node) : Prop where
  kind : ∃ tag, node.kind = .element tag
  children : ∃ token statements, node.children = token :: statements ∧
    token.kind = .tagName ∧
    ∀ statement ∈ statements, statement.IsCompleteStatement

theorem RawAttribute.isCompleteStatement_toNode {a : RawAttribute}
    (hquoted : IsQuoted a.value.text) : a.toNode.IsCompleteStatement where
  kind := rfl
  tokens := ⟨_, _, rfl, rfl, rfl, by rwa [String.toList_ofList]⟩

theorem isComplete_nodeOfTag {raw : RawStartTag}
    (hquoted : ∀ a ∈ raw.attributes, IsQuoted a.value.text) (tag : Tag)
    (span : Span) : (nodeOfTag tag span raw).IsComplete where
  kind := ⟨tag, rfl⟩
  children := by
    refine ⟨_, _, rfl, rfl, ?_⟩
    rw [List.forall_mem_map]
    exact fun a ha => RawAttribute.isCompleteStatement_toNode (hquoted a ha)

section Reading

variable {wanted : List Tag} {source : String} {nodes : List Node} {node : Node}

theorem isComplete_of_nodeOfElement {element : Xml.Element}
    (hread : nodeOfElement wanted element = .ok (some node)) :
    node.IsComplete := by
  unfold nodeOfElement at hread
  split at hread
  · cases hread
  · split at hread
    · split at hread
      · contradiction
      · next raw hscan =>
          cases hread
          exact isComplete_nodeOfTag (isQuoted_of_scanStartTag hscan) _ _
    · cases hread

/-- Whatever the reader of documents takes for elements, the nodes that come of
them are complete. -/
theorem isComplete_of_readConfigurationBy
    {elements? : Cursor → Option (List Xml.Element)}
    (hread : readConfigurationBy elements? wanted source = .ok nodes) :
    ∀ node ∈ nodes, node.IsComplete := by
  unfold readConfigurationBy at hread
  split at hread
  · contradiction
  · next elements _ =>
      obtain ⟨found, hfound, rfl⟩ := return_eq_ok_iff.mp hread
      intro node hnode
      obtain ⟨node?, hmem, hsome⟩ := List.mem_filterMap.mp hnode
      obtain ⟨element, _, helement⟩ :=
        exists_of_mem_forall₂ (mapM_eq_ok_iff.mp hfound) hmem
      rw [show node? = some node from hsome] at helement
      exact isComplete_of_nodeOfElement helement

/-- There are as many nodes as elements of wanted kinds. -/
theorem length_of_readConfiguration
    (hread : readConfiguration wanted source = .ok nodes) :
    ∃ elements, Xml.elements? (Cursor.ofText source) = some elements ∧
      nodes.length =
        (elements.filter (Xml.Element.isWanted wanted)).length := by
  unfold readConfiguration at hread
  split at hread
  · contradiction
  · next elements helements =>
      obtain ⟨found, hfound, rfl⟩ := return_eq_ok_iff.mp hread
      obtain ⟨same, hsame, hshown⟩ :=
        mapM_nodeOfElement wanted (Xml.startsIn_of_elements? helements)
      rw [hfound, Except.ok.injEq] at hsame
      subst hsame
      exact ⟨elements, helements, hshown.length_eq.symm⟩

end Reading

/-! Judging nodes on which every look-up comes to an end -/

theorem Node.IsCompleteStatement.exists_tokens {statement : Node}
    (hcomplete : statement.IsCompleteStatement) :
    ∃ found, statement.tokens = .ok found := by
  obtain ⟨name, value, hchildren, _⟩ := hcomplete.tokens
  exact ⟨⟨statement, name, value⟩, by rw [Node.tokens, hchildren]⟩

theorem Node.IsComplete.exists_findAttribute? {node : Node}
    (hcomplete : node.IsComplete) (name : String) :
    ∃ found?, node.findAttribute? name = .ok found? := by
  obtain ⟨token, statements, hchildren, htoken, hstatements⟩ :=
    hcomplete.children
  rw [Node.findAttribute?_eq, Node.settledAttribute?]
  cases hsettled :
    node.children.find? (Node.settles (Text.lowerChars name.toList)) with
  | none => exact ⟨none, rfl⟩
  | some statement =>
      have hmem := List.mem_of_find?_eq_some hsettled
      have hsettles := List.find?_some hsettled
      rw [Node.settles, Bool.and_eq_true, beq_iff_eq] at hsettles
      rw [hchildren, List.mem_cons] at hmem
      rcases hmem with rfl | hmem
      · rw [htoken] at hsettles
        exact absurd hsettles.1 NodeKind.noConfusion
      · obtain ⟨found, hfound⟩ := (hstatements statement hmem).exists_tokens
        refine ⟨some found, ?_⟩
        dsimp only
        rw [hfound]
        rfl

section Judging

variable {node : Node}
  (hends : ∀ name, ∃ found?, node.findAttribute? name = .ok found?)

include hends

theorem Clause.exists_evaluate (clause : Clause) :
    ∃ outcome, clause.evaluate node = .ok outcome := by
  obtain ⟨found?, hfound⟩ := hends clause.attributeName
  rw [Clause.evaluate, hfound]
  split
  · exact ⟨_, rfl⟩
  · exact ⟨_, rfl⟩

theorem exists_evaluateClauses (sofar : Outcome) (clauses : List Clause) :
    ∃ outcome, evaluateClauses sofar clauses node = .ok outcome := by
  induction clauses generalizing sofar with
  | nil => exact ⟨sofar, rfl⟩
  | cons clause clauses ih =>
      obtain ⟨outcome, houtcome⟩ := clause.exists_evaluate hends
      rw [evaluateClauses, houtcome]
      cases outcome with
      | violation => exact ⟨.violation, rfl⟩
      | pass => exact ih .pass
      | notApplicable => exact ih sofar

theorem ElementRule.exists_evaluate (rule : ElementRule) :
    ∃ outcome, rule.evaluate node = .ok outcome :=
  exists_evaluateClauses hends _ _

theorem Node.failsLookup_eq_false (tag : Tag) (name : String) :
    node.failsLookup tag name = false := by
  rw [Bool.eq_false_iff, ne_eq, Node.failsLookup_eq_true_iff]
  rintro ⟨_, e, he⟩
  obtain ⟨found?, hfound⟩ := hends name
  rw [hfound] at he
  contradiction

theorem CompoundRule.stumbles_eq_false (rule : CompoundRule) :
    rule.stumbles node = false := by
  rw [stumbles, anchorFails, countermandFails, Node.failsLookup_eq_false hends,
    Node.failsLookup_eq_false hends, Bool.or_false]

theorem Evidence.observe_snd_eq_none (rule : CompoundRule) (seen : Evidence) :
    (seen.observe rule node).2 = none := by
  rw [← Option.not_isSome_iff_eq_none, observe_snd_isSome,
    CompoundRule.stumbles_eq_false hends]
  exact Bool.false_ne_true

theorem RuleSet.faultsAt_eq_zero (rules : RuleSet) :
    rules.faultsAt node = 0 := by
  rw [faultsAt, Nat.add_eq_zero_iff, List.countP_eq_zero, List.countP_eq_zero]
  constructor
  · intro rule _
    obtain ⟨outcome, houtcome⟩ := rule.exists_evaluate hends
    simp [ElementRule.stumbles, houtcome]
  · intro rule _
    simp [CompoundRule.stumbles_eq_false hends]

end Judging

theorem RuleSet.faults_eq_zero (rules : RuleSet) {nodes : List Node}
    (hcomplete : ∀ node ∈ nodes, node.IsComplete) : rules.faults nodes = 0 := by
  induction nodes with
  | nil => rfl
  | cons node nodes ih =>
      rw [List.forall_mem_cons] at hcomplete
      rw [faults, List.map_cons, List.sum_cons,
        faultsAt_eq_zero hcomplete.1.exists_findAttribute?]
      exact (Nat.zero_add _).trans (ih hcomplete.2)

/-- The counts of a file that was analyzed: no evaluation was cut short, and
there was one node for each element that the rules ask for. -/
theorem Analyzer.counts_of_analyzeSource {a : Analyzer} {file source : String}
    {sink : List Violation} {summary : WalkSummary}
    (hanalyzed : (a.analyzeSource file source sink).1 = .analyzed summary) :
    summary.errors = 0 ∧ ∃ elements, Xml.elements? (Cursor.ofText source) =
        some elements ∧
      summary.elements =
        (elements.filter (Xml.Element.isWanted a.rules.tags)).length := by
  cases hreader : a.hasReader with
  | false => simp [analyzeSource_of_noReader hreader] at hanalyzed
  | true =>
      rcases analyzeSource_cases hreader file source with
        ⟨e, _, hdone⟩ | ⟨nodes, hnodes, hdone⟩
      · simp [hdone] at hanalyzed
      · rw [hdone, FileOutcome.analyzed.injEq] at hanalyzed
        subst hanalyzed
        have hread : readConfigurationBy Xml.elements? a.rules.tags source =
            .ok nodes := hnodes
        exact ⟨a.rules.faults_eq_zero (isComplete_of_readConfigurationBy hread),
          length_of_readConfiguration hnodes⟩

/-- No rule is skipped on a node that is read from a text.  Its name comes first
and each of its attributes has a name and a quoted value, so no look-up fails on
it, nor does a clause, a rule or an observation.  The summary of a file that is
analyzed therefore has no errors, and it counts the elements of the document
that the rules ask for. -/
theorem no_rule_is_skipped :
    readConfiguration = readConfigurationBy Xml.elements? ∧
      (∀ elements? wanted source nodes,
        readConfigurationBy elements? wanted source = .ok nodes →
          ∀ node ∈ nodes,
          node.IsComplete ∧
            (∀ name, ∃ found?, node.findAttribute? name = .ok found?) ∧
            (∀ clause : Clause, ∃ outcome, clause.evaluate node = .ok outcome) ∧
            (∀ rule : ElementRule, ∃ outcome, rule.evaluate node =
              .ok outcome) ∧
            ∀ (rule : CompoundRule) (seen : Evidence),
              (seen.observe rule node).2 = none) ∧
      (∀ (a : Analyzer) file source sink summary,
        (a.analyzeSource file source sink).1 = .analyzed summary →
          summary.errors = 0 ∧
          ∃ elements, Xml.elements? (Cursor.ofText source) = some elements ∧
            summary.elements =
              (elements.filter (Xml.Element.isWanted a.rules.tags)).length) ∧
      ∀ (a : Analyzer) tree target sink summary,
        (a.introduce tree target sink).1 = .analyzed summary →
          summary.errors = 0 ∧ ∃ source elements, tree.readText target.config =
            .ok source ∧
            Xml.elements? (Cursor.ofText source) = some elements ∧
            summary.elements =
              (elements.filter (Xml.Element.isWanted a.rules.tags)).length := by
  refine ⟨rfl, ?_, ?_, ?_⟩
  · intro elements? wanted source nodes hread node hnode
    have hcomplete := isComplete_of_readConfigurationBy hread node hnode
    have hends := hcomplete.exists_findAttribute?
    exact ⟨hcomplete, hends, fun clause => clause.exists_evaluate hends,
      fun rule => rule.exists_evaluate hends,
      Evidence.observe_snd_eq_none hends⟩
  · intro a file source sink summary hanalyzed
    exact Analyzer.counts_of_analyzeSource hanalyzed
  · intro a tree target sink summary hanalyzed
    obtain ⟨source, hcontent, hsame⟩ :=
      Analyzer.exists_text_of_analyzed hanalyzed
    rw [hsame] at hanalyzed
    obtain ⟨herrors, elements, helements, hcount⟩ :=
      Analyzer.counts_of_analyzeSource hanalyzed
    exact ⟨herrors, source, elements, hcontent, helements, hcount⟩

namespace CompleteNodesWitness

/-- Quotes of the other kind inside values, an empty value, one that holds an
attribute's text, and an element that no rule asks for. -/
def text : String :=
  "<web><forms name='say \"a\"' path = \"it's\"/><SessionState mode='' note='timeout=\"5\"'/></web>"

def tree : FileTree where
  items :=
    [(["site"], .directory),
     (["site", "Site.csproj"], .file (some "<Project/>")),
     (["site", "Web.config"], .file (some text))]
  distinct := by decide

def target : Target := ⟨⟨"/site/Web.config"⟩, ⟨"/site/Site.csproj"⟩⟩

def analyzer : Analyzer := { rules := Builtin.rules, hasReader := true }

/-- The elements that the built-in rules ask for. -/
def nodes : List Node :=
  (readConfiguration analyzer.rules.tags text).toOption.getD []

theorem readConfiguration_text :
    readConfiguration analyzer.rules.tags text = .ok nodes :=
  eq_ok_of_isOk [] (by decide +kernel)

theorem both_elements_are_judged :
    readConfiguration analyzer.rules.tags text = .ok nodes ∧
      (∀ node ∈ nodes, node.IsComplete) ∧
      (analyzer.analyzeSource "draft" text []).1 = .analyzed ⟨2, 1, 0⟩ ∧
      (analyzer.introduce tree target []).1 = .analyzed ⟨2, 1, 0⟩ ∧
      (∃ source, tree.readText target.config = .ok source) ∧
      ∃ elements, Xml.elements? (Cursor.ofText text) = some elements ∧
        (elements.filter (Xml.Element.isWanted analyzer.rules.tags)).length =
          2 := by
  obtain ⟨hsame, hnodes, htexts, hfiles⟩ := no_rule_is_skipped
  have hanalyzed : (analyzer.analyzeSource "draft" text []).1 =
      .analyzed ⟨2, 1, 0⟩ := by
    decide +kernel
  have hintroduced : (analyzer.introduce tree target []).1 =
      .analyzed ⟨2, 1, 0⟩ := by
    decide +kernel
  obtain ⟨_, elements, helements, hcount⟩ := htexts _ _ _ _ _ hanalyzed
  obtain ⟨_, source, _, hcontent, _⟩ := hfiles _ _ _ _ _ hintroduced
  have hread := readConfiguration_text
  rw [hsame] at hread
  exact ⟨readConfiguration_text, fun node hnode =>
      (hnodes _ _ _ _ hread node hnode).1, hanalyzed,
    hintroduced, ⟨source, hcontent⟩, elements, helements, hcount.symm⟩

end CompleteNodesWitness

end WebConfigAudit
