import Mathlib.Algebra.GroupWithZero.Nat
import WebConfigAudit.Audit.Walk
import WebConfigAudit.Proofs.Evidence
/-!
What a walk reports, said without the walk: one report for each node and each
rule on single elements that the node offends, and then one for each compound
rule with a verdict.  A malformed statement counts as an error of the rule that
met it and has no other effect.
-/

namespace WebConfigAudit

/-- Some clause rejects the node, and no clause ahead of it is cut short. -/
def OffendsClause (clauses : List Clause) (node : Node) : Prop :=
  ∃ before clause after, clauses = before ++ clause :: after ∧
    (∀ earlier ∈ before, ∃ outcome, earlier.evaluate node = .ok outcome) ∧
    clause.evaluate node = .ok .violation

theorem not_offendsClause_nil (node : Node) : ¬ OffendsClause [] node := by
  rintro ⟨before, clause, after, hsplit, _⟩
  simp at hsplit

theorem offendsClause_cons_iff {head : Clause} {tail : List Clause}
    {node : Node} :
    OffendsClause (head :: tail) node ↔
      head.evaluate node = .ok .violation ∨
        (∃ outcome, head.evaluate node = .ok outcome) ∧
        OffendsClause tail node := by
  constructor
  · rintro ⟨before, clause, after, hsplit, hbefore, hclause⟩
    cases before with
    | nil =>
        obtain ⟨rfl, rfl⟩ := List.cons.inj hsplit
        exact Or.inl hclause
    | cons first before =>
        obtain ⟨rfl, rfl⟩ := List.cons.inj hsplit
        rw [List.forall_mem_cons] at hbefore
        exact Or.inr ⟨hbefore.1, before, clause, after, rfl, hbefore.2, hclause⟩
  · rintro (hhead | ⟨hhead, before, clause, after, rfl, hbefore, hclause⟩)
    · exact ⟨[], head, tail, rfl, by simp, hhead⟩
    · exact ⟨head :: before, clause, after, rfl,
        List.forall_mem_cons.mpr ⟨hhead, hbefore⟩, hclause⟩

theorem evaluateClauses_eq_violation_iff {sofar : Outcome}
    (hsofar : sofar ≠ .violation) (clauses : List Clause) (node : Node) :
    evaluateClauses sofar clauses node = .ok .violation ↔
      OffendsClause clauses node := by
  induction clauses generalizing sofar with
  | nil => simp [evaluateClauses, hsofar, not_offendsClause_nil]
  | cons head tail ih =>
      rw [evaluateClauses, offendsClause_cons_iff]
      cases hhead : head.evaluate node with
      | error e => simp
      | ok outcome =>
          cases outcome with
          | violation => simp
          | pass => simpa using ih (by decide)
          | notApplicable => simpa using ih hsofar

/-- The node offends one of the rule's clauses. -/
def ElementRule.Offends (rule : ElementRule) (node : Node) : Prop :=
  OffendsClause rule.clauses node

theorem ElementRule.evaluate_eq_violation_iff {rule : ElementRule}
    {node : Node} : rule.evaluate node = .ok .violation ↔ rule.Offends node :=
  evaluateClauses_eq_violation_iff (by decide) rule.clauses node

instance (rule : ElementRule) (node : Node) : Decidable (rule.Offends node) :=
  decidable_of_iff ((rule.evaluate node).toOption = some .violation) (by
    rw [← ElementRule.evaluate_eq_violation_iff]
    cases rule.evaluate node <;> simp [Except.toOption])

/-- Whether the evaluation of the rule on the node is cut short. -/
def ElementRule.stumbles (rule : ElementRule) (node : Node) : Bool :=
  match rule.evaluate node with
  | .ok _ => false
  | .error _ => true

/-- The report of a node that offends the rule.  It says what the rule is
described by, or else which element violates which rule. -/
def ElementRule.report? (rule : ElementRule) (file : String) (node : Node) :
    Option Violation :=
  if rule.Offends node then
    some
      { file
        rule := rule.id
        span := node.location
        message :=
          match rule.description with
          | some description => description
          | none => node.text ++ " element violates " ++ rule.id }
  else none

theorem ElementRule.message_of_description {rule : ElementRule}
    {description : String} (hdescription : rule.description = some description)
    (node : Node) : rule.message node = description := by
  rw [message, hdescription, Option.getD_some]

theorem ElementRule.message_of_none {rule : ElementRule}
    (hnone : rule.description = none) (node : Node) :
    rule.message node = node.text ++ " element violates " ++ rule.id := by
  rw [message, hnone, Option.getD_none]

theorem ElementRule.report?_of_violation {rule : ElementRule} {node : Node}
    (file : String) (hviolation : rule.evaluate node = .ok .violation) :
    rule.report? file node =
      some ⟨file, rule.id, node.location, rule.message node⟩ := by
  rw [report?, if_pos (ElementRule.evaluate_eq_violation_iff.mp hviolation)]
  cases hdescription : rule.description with
  | none => rw [message_of_none hdescription]
  | some description => rw [message_of_description hdescription]

theorem ElementRule.report?_eq_none {rule : ElementRule} {node : Node}
    (file : String) (hother : rule.evaluate node ≠ .ok .violation) :
    rule.report? file node = none :=
  if_neg fun hoffends =>
    hother (ElementRule.evaluate_eq_violation_iff.mpr hoffends)

/-- The report of the rule's verdict once every node was observed.  It says what
the rule is described by, or else which anchor has no countermand. -/
def CompoundRule.report? (rule : CompoundRule) (file : String)
    (nodes : List Node) : Option Violation :=
  (Evidence.after rule {} nodes).verdict.map fun node =>
    { file
      rule := rule.id
      span := node.location
      message :=
        match rule.description with
        | some description => description
        | none =>
            rule.anchor.attributeName ++ " enabled without a matching " ++
              rule.countermand.tag.typeName ++ " grant" }

theorem CompoundRule.message_of_description {rule : CompoundRule}
    {description : String}
    (hdescription : rule.description = some description) :
    rule.message = description := by
  rw [message, hdescription, Option.getD_some]

theorem CompoundRule.message_of_none {rule : CompoundRule}
    (hnone : rule.description = none) :
    rule.message =
      rule.anchor.attributeName ++ " enabled without a matching " ++
        rule.countermand.tag.typeName ++ " grant" := by
  rw [message, hnone, Option.getD_none]

theorem CompoundRule.report?_eq (rule : CompoundRule) (file : String)
    (nodes : List Node) :
    rule.report? file nodes =
      (Evidence.after rule {} nodes).verdict.map fun node =>
        ⟨file, rule.id, node.location, rule.message⟩ := by
  rw [report?]
  cases hdescription : rule.description with
  | none => rw [message_of_none hdescription]
  | some description => rw [message_of_description hdescription]

namespace RuleSet

variable (rules : RuleSet)

/-- The reports on one node, in the order of the rules. -/
def reportsAt (file : String) (node : Node) : List Violation :=
  rules.elementRules.filterMap fun rule => rule.report? file node

/-- The reports of the compound rules, in the order of the rules. -/
def verdicts (file : String) (nodes : List Node) : List Violation :=
  rules.compoundRules.filterMap fun rule => rule.report? file nodes

/-- All reports on a file: those on its nodes in order, then the verdicts. -/
def reports (file : String) (nodes : List Node) : List Violation :=
  nodes.flatMap (rules.reportsAt file) ++ rules.verdicts file nodes

/-- How many rules stumble over one node. -/
def faultsAt (node : Node) : Nat :=
  rules.elementRules.countP (·.stumbles node) +
    rules.compoundRules.countP (·.stumbles node)

/-- How many times a rule stumbles over a node. -/
def faults (nodes : List Node) : Nat :=
  (nodes.map rules.faultsAt).sum

end RuleSet

/-- The walk with more reports at the end of its sink and more errors, all
counted. -/
def Walk.extend (walk : Walk) (found : List Violation) (faults : Nat) : Walk :=
  { walk with
    sink := walk.sink ++ found
    summary := { walk.summary with
      violations := walk.summary.violations + found.length
      errors := walk.summary.errors + faults } }

namespace Walk

variable (walk : Walk) (file : String) (node : Node)

@[simp] theorem extend_nil : walk.extend [] 0 = walk := by
  simp [extend]

@[simp] theorem extend_extend (first second : List Violation) (m n : Nat) :
    (walk.extend first m).extend second n =
      walk.extend (first ++ second) (m + n) := by
  simp [extend, Nat.add_assoc]

theorem applyRule_eq (rule : ElementRule) :
    walk.applyRule file node rule =
      walk.extend (rule.report? file node).toList
        (if rule.stumbles node then 1 else 0) := by
  unfold applyRule ElementRule.stumbles
  cases hevaluate : rule.evaluate node with
  | error e =>
      rw [ElementRule.report?_eq_none file (by simp [hevaluate])]
      simp [countError, extend]
  | ok outcome =>
      cases outcome with
      | violation =>
          rw [ElementRule.report?_of_violation file hevaluate]
          simp [report, extend]
      | pass =>
          rw [ElementRule.report?_eq_none file (by simp [hevaluate])]
          simp
      | notApplicable =>
          rw [ElementRule.report?_eq_none file (by simp [hevaluate])]
          simp

theorem foldl_applyRule (rules : List ElementRule) :
    rules.foldl (applyRule file node) walk =
      walk.extend (rules.filterMap fun rule => rule.report? file node)
        (rules.countP (·.stumbles node)) := by
  induction rules generalizing walk with
  | nil => simp
  | cons rule rules ih =>
      rw [List.foldl_cons, applyRule_eq, ih, extend_extend, List.countP_cons,
        Nat.add_comm]
      cases hreport : rule.report? file node with
      | none => simp [hreport]
      | some found => simp [hreport]

end Walk

theorem observeAll_map (node : Node) (rules : List CompoundRule)
    (seen : CompoundRule → Evidence) :
    observeAll node rules (rules.map seen) =
      (rules.map fun rule => ((seen rule).observe rule node).1,
        rules.countP (·.stumbles node)) := by
  induction rules with
  | nil => rfl
  | cons rule rules ih =>
      simp only [List.map_cons, observeAll, ih, Evidence.observe_snd_isSome,
        List.countP_cons]
      rw [Nat.add_comm]

/-- One node of a walk whose evidence is kept rule by rule. -/
theorem Walk.visit_eq (rules : RuleSet) (file : String) (walk : Walk)
    (node : Node) (seen : CompoundRule → Evidence)
    (hseen : walk.evidence = rules.compoundRules.map seen) :
    walk.visit rules file node =
      { walk.extend (rules.reportsAt file node) (rules.faultsAt node) with
        summary.elements := walk.summary.elements + 1
        evidence := rules.compoundRules.map fun rule =>
          ((seen rule).observe rule node).1 } := by
  simp only [visit, foldl_applyRule, extend, hseen, observeAll_map,
    RuleSet.reportsAt, RuleSet.faultsAt, Nat.add_assoc]

/-- A walk over any nodes, from any point at which the evidence is kept rule by
rule. -/
theorem Walk.foldl_visit (rules : RuleSet) (file : String) (nodes : List Node)
    (walk : Walk) (seen : CompoundRule → Evidence)
    (hseen : walk.evidence = rules.compoundRules.map seen) :
    nodes.foldl (Walk.visit rules file) walk =
      { walk.extend (nodes.flatMap (rules.reportsAt file))
          (rules.faults nodes) with
        summary.elements := walk.summary.elements + nodes.length
        evidence := rules.compoundRules.map fun rule =>
          (seen rule).after rule nodes } := by
  induction nodes generalizing walk seen with
  | nil => simp [RuleSet.faults, extend, ← hseen]
  | cons node nodes ih =>
      rw [List.foldl_cons, Walk.visit_eq rules file walk node seen hseen,
        ih _ (fun rule => ((seen rule).observe rule node).1) rfl]
      simp [RuleSet.faults, extend, Nat.add_assoc, Nat.add_comm nodes.length]

theorem Walk.conclude_eq (file : String) (walk : Walk)
    (rules : List CompoundRule) (seen : CompoundRule → Evidence) :
    walk.conclude file rules (rules.map seen) =
      walk.extend (rules.filterMap fun rule =>
        (seen rule).verdict.map fun node =>
          ⟨file, rule.id, node.location, rule.message⟩) 0 := by
  induction rules generalizing walk with
  | nil => simp [conclude]
  | cons rule rules ih =>
      rw [List.map_cons, conclude]
      cases hverdict : (seen rule).verdict with
      | none => simp [ih, hverdict]
      | some node =>
          have hreport : walk.report file rule.id node rule.message =
              walk.extend [⟨file, rule.id, node.location, rule.message⟩] 0 :=
            rfl
          simp [ih, hverdict, hreport]

/-- A walk appends the reports to the sink and counts nodes, reports and
errors. -/
theorem walkNodes_eq (rules : RuleSet) (file : String) (nodes : List Node)
    (sink : List Violation) :
    walkNodes rules file nodes sink =
      (sink ++ rules.reports file nodes,
        { elements := nodes.length
          violations := (rules.reports file nodes).length
          errors := rules.faults nodes }) := by
  rw [walkNodes, Walk.foldl_visit rules file nodes _ (fun _ => {}) rfl,
    Walk.conclude_eq]
  simp [Walk.extend, RuleSet.reports, RuleSet.verdicts, CompoundRule.report?_eq]

/-- A rule that stumbles over a node might as well be absent from the step, but
for the count. -/
theorem Walk.visit_of_stumbles {rules : RuleSet}
    {before after : List ElementRule} {rule : ElementRule} {node : Node}
    (file : String) (walk : Walk)
    (hsplit : rules.elementRules = before ++ rule :: after)
    (hstumbles : rule.stumbles node = true) :
    walk.visit rules file node =
      (walk.visit { rules with elementRules := before ++ after } file
        node).countError := by
  have hreport : rule.report? file node = none := by
    apply ElementRule.report?_eq_none
    intro hviolation
    simp [ElementRule.stumbles, hviolation] at hstumbles
  simp only [visit, hsplit, foldl_applyRule, extend, countError,
    List.filterMap_append, List.filterMap_cons, hreport, List.countP_append,
    List.countP_cons, hstumbles, ↓reduceIte]
  congr 2
  omega

/-- A walk appends the reports and nothing else.  The summary counts the
appended violations, the nodes, and the pairs of a node and a rule that
stumbles over it; for a compound rule that does not depend on what it has seen.
A rule on single elements that stumbles over a node changes the count of errors
only. -/
theorem walkNodes_reports (rules : RuleSet) (file : String) (nodes : List Node)
    (sink : List Violation) :
    let done := walkNodes rules file nodes sink
    done.1 = sink ++ rules.reports file nodes ∧
      done.2.violations = (rules.reports file nodes).length ∧
      done.2.elements = nodes.length ∧
      done.2.errors = rules.faults nodes ∧
      (∀ (rule : CompoundRule) (seen : Evidence) (node : Node),
        (seen.observe rule node).2.isSome = rule.stumbles node) ∧
      (∀ (walk : Walk) (node : Node) (before : List ElementRule)
          (rule : ElementRule)
          (after : List ElementRule),
        rules.elementRules = before ++ rule :: after →
          rule.stumbles node = true →
          walk.visit rules file node =
            (walk.visit { rules with elementRules := before ++ after } file
              node).countError) := by
  simp only [walkNodes_eq, true_and]
  constructor
  · intro rule seen node
    exact Evidence.observe_snd_isSome rule seen node
  · intro walk node before rule after hsplit hstumbles
    exact Walk.visit_of_stumbles file walk hsplit hstumbles

namespace ReportsWitness

/-- Sessions end after a quarter of an hour. -/
def shortSessions : ElementRule where
  id := "AvoidLongSessions"
  description := some "sessions are over after a quarter of an hour"
  clauses := [.of .sessionState "timeout" (.integer (.maxValue 15))]

def cookieSessions : ElementRule where
  id := "AvoidSessionsInAddresses"
  clauses := [.of .sessionState "cookieless" .presence]

/-- Sessions without cookies are for debugging only. -/
def cookieDebugging : CompoundRule where
  id := "AvoidSessionsInAddressesOutsideDebugging"
  anchor := .of .sessionState "cookieless" ["true"]
  countermand := .of .compilation "debug" "true"

def rules : RuleSet := ⟨[cookieSessions, shortSessions], [cookieDebugging]⟩

def sessionWith (statements : List Node) : Node :=
  { Node.element .sessionState Span.nowhere with children := statements }

def long : Node :=
  sessionWith
    [Node.statement "timeout" "\"99\"" Span.nowhere Span.nowhere,
     Node.statement "cookieless" "\"True\"" Span.nowhere Span.nowhere]

/-- The time-out has no value.  The rule on cookies does not come across it as
an error. -/
def broken : Node :=
  sessionWith
    [{ kind := .statement, text := "timeout", span := Span.nowhere
       children :=
        [{ kind := .attributeName, text := "timeout", span := Span.nowhere }] }]

def started : Walk := { sink := [], evidence := [] }

/-- The messages are a default text, a description, and the default text of a
rule on two elements. -/
theorem walk_over_broken_node :
    rules.elementRules = [cookieSessions] ++ shortSessions :: [] ∧
      shortSessions.stumbles broken = true ∧
      started.visit rules "web.config" broken =
        (started.visit ⟨[cookieSessions], [cookieDebugging]⟩ "web.config"
          broken).countError ∧
      (walkNodes rules "web.config" [broken, long] []).1 =
        [] ++ rules.reports "web.config" [broken, long] ∧
      (walkNodes rules "web.config" [broken, long] []).1.map
          Violation.message =
        ["sessionState element violates AvoidSessionsInAddresses",
         "sessions are over after a quarter of an hour",
         "cookieless enabled without a matching compilation grant"] ∧
      (walkNodes rules "web.config" [broken, long] []).2.errors =
        rules.faults [broken, long] := by
  have hsplit : rules.elementRules = [cookieSessions] ++ shortSessions :: [] :=
    rfl
  have hstumbles : shortSessions.stumbles broken = true := by decide +kernel
  obtain ⟨hsink, _, _, herrors, _, hlocal⟩ :=
    walkNodes_reports rules "web.config" [broken, long] []
  have hvisit :=
    hlocal started broken [cookieSessions] shortSessions [] hsplit hstumbles
  refine ⟨hsplit, hstumbles, hvisit, hsink, ?_, herrors⟩
  rw [hsink]
  decide +kernel

example : (walkNodes rules "web.config" [broken, long] []).2 = ⟨2, 3, 1⟩ := by
  decide +kernel

end ReportsWitness

end WebConfigAudit
