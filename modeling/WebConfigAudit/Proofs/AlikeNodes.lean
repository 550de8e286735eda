import Mathlib.Data.List.Forall2
import WebConfigAudit.Proofs.Reports
/-!
What rules can tell of a node: its kind, its name, its place, and how the
attributes read that they look up on elements of its kind.  Nodes that are alike
in this are reported alike.
-/

namespace WebConfigAudit

/-- What a check can tell of an attribute: the number that its value is, if it
is one, and the value in its normalized form. -/
def AttributeMatch.reading (found : AttributeMatch) : Option UInt64 × String :=
  (Text.readDecimal found.valueText.toList, found.normalizedValue)

/-- What a rule can tell of the attribute under a name: that looking for it is
an error, that there is none, or how it reads. -/
def Node.reading (node : Node) (name : String) :
    Option (Option (Option UInt64 × String)) :=
  (node.findAttribute? name).toOption.map (Option.map AttributeMatch.reading)

namespace RuleSet

/-- Whether some clause or condition of the rules looks for a name on elements
of a kind. -/
inductive LooksFor (rules : RuleSet) (tag : Tag) (name : String) : Prop where
  | clause (rule : ElementRule) (clause : Clause)
      (hrule : rule ∈ rules.elementRules) (hclause : clause ∈ rule.clauses)
      (htag : clause.tag = tag) (hname : clause.attributeName = name)
  | anchor (rule : CompoundRule) (hrule : rule ∈ rules.compoundRules)
      (htag : rule.anchor.tag = tag) (hname : rule.anchor.attributeName = name)
  | countermand (rule : CompoundRule) (hrule : rule ∈ rules.compoundRules)
      (htag : rule.countermand.tag = tag)
      (hname : rule.countermand.attributeName = name)

/-- The rules cannot tell the second node from the first. -/
structure SeesAlike (rules : RuleSet) (node other : Node) : Prop where
  kind : other.kind = node.kind
  text : ∀ tag, node.kind = .element tag → other.text = node.text
  location : ∀ tag, node.kind = .element tag → other.location = node.location
  reading : ∀ tag name, node.kind = .element tag → rules.LooksFor tag name →
    other.reading name = node.reading name

end RuleSet

section Lookup

variable {node other : Node} {tag : Tag} {name : String}

theorem Check.accepts_eq_of_reading (check : Check)
    {found others : Option AttributeMatch}
    (hreading : others.map AttributeMatch.reading =
      found.map AttributeMatch.reading) :
    check.accepts others = check.accepts found := by
  cases found with
  | none =>
      rw [Option.map_none, Option.map_eq_none_iff] at hreading
      rw [hreading]
  | some found =>
      obtain ⟨same, rfl, hsame⟩ := Option.map_eq_some_iff.mp hreading
      simp only [AttributeMatch.reading, Prod.mk.injEq] at hsame
      obtain ⟨hnumber, htext⟩ := hsame
      cases check with
      | presence => rfl
      | integer policy =>
          unfold accepts
          dsimp only
          rw [hnumber]
      | string policy =>
          unfold accepts
          dsimp only
          rw [htext]

/-- Both look-ups fail, or both succeed and find what reads alike. -/
theorem Node.lookup_cases (hreading : other.reading name = node.reading name) :
    (∃ e e', node.findAttribute? name = .error e ∧
      other.findAttribute? name = .error e') ∨
      ∃ found found', node.findAttribute? name = .ok found ∧
        other.findAttribute? name = .ok found' ∧
        found'.map AttributeMatch.reading =
          found.map AttributeMatch.reading := by
  unfold Node.reading at hreading
  cases hnode : node.findAttribute? name with
  | error e =>
      cases hother : other.findAttribute? name with
      | error e' => exact Or.inl ⟨e, e', rfl, rfl⟩
      | ok found' => simp [hnode, hother, Except.toOption] at hreading
  | ok found =>
      cases hother : other.findAttribute? name with
      | error e' => simp [hnode, hother, Except.toOption] at hreading
      | ok found' =>
          simp only [hnode, hother, Except.toOption, Option.map_some,
            Option.some.injEq] at hreading
          exact Or.inr ⟨found, found', rfl, rfl, hreading⟩

variable (hkind : other.kind = node.kind)
  (hreading : node.kind = .element tag → other.reading name = node.reading name)

include hkind hreading

theorem Node.hasValue_eq_of_reading (accepts : String → Bool) :
    other.hasValue tag name accepts = node.hasValue tag name accepts := by
  unfold Node.hasValue Node.attributeAs?
  rw [hkind]
  by_cases htag : node.kind = .element tag
  · rw [if_pos htag, if_pos htag]
    rcases Node.lookup_cases (hreading htag) with
      ⟨e, e', hnode, hother⟩ | ⟨found, found', hnode, hother, hsame⟩
    · rw [hnode, hother]
    · rw [hnode, hother]
      cases found with
      | none =>
          rw [Option.map_none, Option.map_eq_none_iff] at hsame
          rw [hsame]
      | some found =>
          obtain ⟨same, rfl, hreads⟩ := Option.map_eq_some_iff.mp hsame
          simp only [AttributeMatch.reading, Prod.mk.injEq] at hreads
          exact congrArg accepts hreads.2
  · rw [if_neg htag, if_neg htag]

theorem Node.failsLookup_eq_of_reading :
    other.failsLookup tag name = node.failsLookup tag name := by
  unfold Node.failsLookup Node.attributeAs?
  rw [hkind]
  by_cases htag : node.kind = .element tag
  · rw [if_pos htag, if_pos htag]
    rcases Node.lookup_cases (hreading htag) with
      ⟨e, e', hnode, hother⟩ | ⟨found, found', hnode, hother, _⟩
    · rw [hnode, hother]
    · rw [hnode, hother]
  · rw [if_neg htag, if_neg htag]

theorem Clause.evaluate_eq_of_reading {clause : Clause}
    (htag : clause.tag = tag) (hname : clause.attributeName = name) :
    (clause.evaluate other).toOption = (clause.evaluate node).toOption := by
  subst htag hname
  unfold Clause.evaluate
  rw [hkind]
  by_cases htag : node.kind = .element clause.tag
  · rw [if_pos htag, if_pos htag]
    rcases Node.lookup_cases (hreading htag) with
      ⟨e, e', hnode, hother⟩ | ⟨found, found', hnode, hother, hsame⟩
    · rw [hnode, hother]
      rfl
    · rw [hnode, hother]
      simp only [Check.evaluate, Check.accepts_eq_of_reading clause.check hsame]
  · rw [if_neg htag, if_neg htag]

end Lookup

theorem evaluateClauses_eq_of_evaluate_eq {clauses : List Clause}
    {node other : Node}
    (hclauses : ∀ clause ∈ clauses, (clause.evaluate other).toOption =
      (clause.evaluate node).toOption)
    (sofar : Outcome) :
    (evaluateClauses sofar clauses other).toOption =
      (evaluateClauses sofar clauses node).toOption := by
  induction clauses generalizing sofar with
  | nil => rfl
  | cons head tail ih =>
      obtain ⟨hhead, htail⟩ := List.forall_mem_cons.mp hclauses
      rw [evaluateClauses, evaluateClauses]
      cases hnode : head.evaluate node with
      | error e =>
          cases hother : head.evaluate other with
          | error e' => rfl
          | ok outcome => simp [hnode, hother, Except.toOption] at hhead
      | ok outcome =>
          cases hother : head.evaluate other with
          | error e' => simp [hnode, hother, Except.toOption] at hhead
          | ok outcome' =>
              simp only [hnode, hother, Except.toOption, Option.some.injEq]
                at hhead
              subst hhead
              cases outcome' with
              | violation => rfl
              | pass => exact ih htail .pass
              | notApplicable => exact ih htail sofar

theorem ElementRule.exists_kind_of_offends {rule : ElementRule} {node : Node}
    (hoffends : rule.Offends node) : ∃ tag, node.kind = .element tag := by
  obtain ⟨_, clause, _, _, _, hviolation⟩ := hoffends
  unfold Clause.evaluate at hviolation
  split at hviolation
  · next hkind => exact ⟨clause.tag, hkind⟩
  · contradiction

/-- Evidence that leads to the same report: the anchors, if there are any, have
one place. -/
structure Evidence.SaysAlike (seen other : Evidence) : Prop where
  anchor : other.anchor.map Node.location = seen.anchor.map Node.location
  countermanded : other.countermanded = seen.countermanded

namespace RuleSet

variable {rules : RuleSet}

section Step

variable {node other : Node} (halike : rules.SeesAlike node other)

include halike

theorem evaluate_eq_of_seesAlike {rule : ElementRule}
    (hrule : rule ∈ rules.elementRules) :
    (rule.evaluate other).toOption = (rule.evaluate node).toOption := by
  apply evaluateClauses_eq_of_evaluate_eq
  intro clause hclause
  exact Clause.evaluate_eq_of_reading halike.kind
    (fun htag => halike.reading _ _ htag
      (.clause rule clause hrule hclause rfl rfl)) rfl rfl

theorem report?_eq_of_seesAlike {rule : ElementRule}
    (hrule : rule ∈ rules.elementRules) (file : String) :
    rule.report? file other = rule.report? file node := by
  have hevaluate := evaluate_eq_of_seesAlike halike hrule
  have hoffends : rule.Offends other ↔ rule.Offends node := by
    rw [← ElementRule.evaluate_eq_violation_iff,
      ← ElementRule.evaluate_eq_violation_iff]
    cases hnode : rule.evaluate node with
    | error e =>
        cases hother : rule.evaluate other with
        | error e' => simp
        | ok outcome => simp [hnode, hother, Except.toOption] at hevaluate
    | ok outcome =>
        cases hother : rule.evaluate other with
        | error e' => simp [hnode, hother, Except.toOption] at hevaluate
        | ok outcome' =>
            simp only [hnode, hother, Except.toOption, Option.some.injEq]
              at hevaluate
            rw [hevaluate]
  unfold ElementRule.report?
  by_cases hnode : rule.Offends node
  · obtain ⟨tag, htag⟩ := ElementRule.exists_kind_of_offends hnode
    rw [if_pos hnode, if_pos (hoffends.mpr hnode), halike.text tag htag,
      halike.location tag htag]
  · rw [if_neg hnode, if_neg fun hother => hnode (hoffends.mp hother)]

theorem stumbles_eq_of_seesAlike {rule : ElementRule}
    (hrule : rule ∈ rules.elementRules) :
    rule.stumbles other = rule.stumbles node := by
  have hevaluate := evaluate_eq_of_seesAlike halike hrule
  unfold ElementRule.stumbles
  cases hnode : rule.evaluate node with
  | error e =>
      cases hother : rule.evaluate other with
      | error e' => rfl
      | ok outcome => simp [hnode, hother, Except.toOption] at hevaluate
  | ok outcome =>
      cases hother : rule.evaluate other with
      | error e' => simp [hnode, hother, Except.toOption] at hevaluate
      | ok outcome' => rfl

variable {rule : CompoundRule} (hrule : rule ∈ rules.compoundRules)

include hrule

theorem isAnchor_eq_of_seesAlike : rule.isAnchor other = rule.isAnchor node :=
  Node.hasValue_eq_of_reading halike.kind
    (fun htag => halike.reading _ _ htag (.anchor rule hrule rfl rfl)) _

theorem anchorFails_eq_of_seesAlike :
    rule.anchorFails other = rule.anchorFails node :=
  Node.failsLookup_eq_of_reading halike.kind
    fun htag => halike.reading _ _ htag (.anchor rule hrule rfl rfl)

theorem countermandFails_eq_of_seesAlike :
    rule.countermandFails other = rule.countermandFails node :=
  Node.failsLookup_eq_of_reading halike.kind
    fun htag => halike.reading _ _ htag (.countermand rule hrule rfl rfl)

theorem countermands_eq_of_seesAlike :
    rule.countermands other = rule.countermands node := by
  have hvalue : rule.isCountermand other = rule.isCountermand node :=
    Node.hasValue_eq_of_reading halike.kind
      (fun htag => halike.reading _ _ htag (.countermand rule hrule rfl rfl)) _
  rw [CompoundRule.countermands, CompoundRule.countermands, hvalue,
    anchorFails_eq_of_seesAlike halike hrule]

theorem stumblesCompound_eq_of_seesAlike :
    rule.stumbles other = rule.stumbles node := by
  rw [CompoundRule.stumbles, CompoundRule.stumbles,
    anchorFails_eq_of_seesAlike halike hrule,
    countermandFails_eq_of_seesAlike halike hrule]

theorem observe_saysAlike {seen seen' : Evidence}
    (hseen : seen.SaysAlike seen') :
    (seen.observe rule node).1.SaysAlike (seen'.observe rule other).1 := by
  rw [Evidence.observe_fst, Evidence.observe_fst,
    isAnchor_eq_of_seesAlike halike hrule,
    countermands_eq_of_seesAlike halike hrule, hseen.countermanded]
  refine ⟨?_, rfl⟩
  by_cases hanchor : rule.isAnchor node = true
  · have hlocation := halike.location _ (Node.hasValue_eq_true_iff.mp hanchor).1
    simp only [hanchor, ↓reduceIte, Option.map_some, hlocation]
  · simp only [hanchor, Bool.false_eq_true, ↓reduceIte, hseen.anchor]

end Step

section Run

variable {nodes others : List Node}
  (halike : List.Forall₂ rules.SeesAlike nodes others)

include halike

theorem after_saysAlike {rule : CompoundRule}
    (hrule : rule ∈ rules.compoundRules) {seen seen' : Evidence}
    (hseen : seen.SaysAlike seen') :
    (seen.after rule nodes).SaysAlike (seen'.after rule others) := by
  induction halike generalizing seen seen' with
  | nil => exact hseen
  | cons hnode _ ih => exact ih (observe_saysAlike hnode hrule hseen)

theorem verdict_eq_of_seesAlike {rule : CompoundRule}
    (hrule : rule ∈ rules.compoundRules) (file : String) :
    rule.report? file others = rule.report? file nodes := by
  have hinitial : Evidence.SaysAlike {} {} := ⟨rfl, rfl⟩
  have hafter := after_saysAlike halike hrule hinitial
  rw [CompoundRule.report?_eq, CompoundRule.report?_eq]
  unfold Evidence.verdict
  rw [hafter.countermanded]
  by_cases hcountermanded : (Evidence.after rule {} nodes).countermanded = true
  · rw [if_pos hcountermanded, if_pos hcountermanded]
  · rw [if_neg hcountermanded, if_neg hcountermanded]
    have hreport :=
      congrArg (Option.map fun span => Violation.mk file rule.id span
        rule.message)
      hafter.anchor
    rwa [Option.map_map, Option.map_map] at hreport

theorem reports_eq_of_seesAlike (file : String) :
    rules.reports file others = rules.reports file nodes := by
  have hnodes : others.flatMap (rules.reportsAt file) =
      nodes.flatMap (rules.reportsAt file) := by
    induction halike with
    | nil => rfl
    | cons hnode _ ih =>
        rw [List.flatMap_cons, List.flatMap_cons, ih]
        congr 1
        exact List.filterMap_congr fun rule hrule =>
          report?_eq_of_seesAlike hnode hrule file
  have hverdicts : rules.verdicts file others = rules.verdicts file nodes :=
    List.filterMap_congr fun rule hrule =>
      verdict_eq_of_seesAlike halike hrule file
  rw [reports, reports, hnodes, hverdicts]

theorem faults_eq_of_seesAlike : rules.faults others = rules.faults nodes := by
  unfold faults
  induction halike with
  | nil => rfl
  | cons hnode _ ih =>
      rw [List.map_cons, List.map_cons, List.sum_cons, List.sum_cons, ih,
        faultsAt, faultsAt]
      congr 2
      · exact List.countP_congr fun rule hrule => by
          rw [stumbles_eq_of_seesAlike hnode hrule]
      · exact List.countP_congr fun rule hrule => by
          rw [stumblesCompound_eq_of_seesAlike hnode hrule]

end Run

end RuleSet

/-- Nodes that the rules cannot tell apart are walked with the same reports and
the same counts. -/
theorem walkNodes_eq_of_seesAlike {rules : RuleSet} {nodes others : List Node}
    (halike : List.Forall₂ rules.SeesAlike nodes others) (file : String)
    (sink : List Violation) :
    walkNodes rules file others sink = walkNodes rules file nodes sink := by
  rw [walkNodes_eq, walkNodes_eq, RuleSet.reports_eq_of_seesAlike halike,
    RuleSet.faults_eq_of_seesAlike halike, halike.length_eq]

end WebConfigAudit
