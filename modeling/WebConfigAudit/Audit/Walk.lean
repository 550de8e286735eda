import WebConfigAudit.Audit.Violation
import WebConfigAudit.Rule.RuleSet
/-!
One pass over the elements of a file.  Violations of rules on single elements
are reported as they are met, and compound rules are decided after the last
node.
-/

namespace WebConfigAudit

/-- What a walk counts: nodes, reported violations, and rule evaluations that a
malformed node cut short. -/
structure WalkSummary where
  elements : Nat := 0
  violations : Nat := 0
  errors : Nat := 0
deriving DecidableEq, Repr

/-- A walk under way: what was reported so far, the counts, and the evidence for
each compound rule, in the order of the rules. -/
structure Walk where
  sink : List Violation
  summary : WalkSummary := {}
  evidence : List Evidence
deriving Repr

/-- Report a violation at the end of the sink. -/
def Walk.report (walk : Walk) (file rule : String) (node : Node)
    (message : String) : Walk :=
  { walk with
    sink := walk.sink ++ [⟨file, rule, node.location, message⟩]
    summary := { walk.summary with violations := walk.summary.violations + 1 } }

def Walk.countError (walk : Walk) : Walk :=
  { walk with
    summary := { walk.summary with errors := walk.summary.errors + 1 } }

def Walk.applyRule (file : String) (node : Node) (walk : Walk)
    (rule : ElementRule) : Walk :=
  match rule.evaluate node with
  | .ok .violation => walk.report file rule.id node (rule.message node)
  | .ok _ => walk
  | .error _ => walk.countError

/-- Let every compound rule observe one node: the evidence afterwards, and how
many were cut short. -/
def observeAll (node : Node) :
    List CompoundRule → List Evidence → List Evidence × Nat
  | rule :: rules, seen :: evidence =>
      let step := seen.observe rule node
      let others := observeAll node rules evidence
      (step.1 :: others.1, (if step.2.isSome then 1 else 0) + others.2)
  | _, _ => ([], 0)

def Walk.visit (rules : RuleSet) (file : String) (walk : Walk) (node : Node) :
    Walk :=
  let counted :=
    { walk with
      summary := { walk.summary with elements := walk.summary.elements + 1 } }
  let judged := rules.elementRules.foldl (Walk.applyRule file node) counted
  let observed := observeAll node rules.compoundRules judged.evidence
  { judged with
    summary :=
      { judged.summary with errors := judged.summary.errors + observed.2 }
    evidence := observed.1 }

/-- Decide the compound rules in order. -/
def Walk.conclude (file : String) (walk : Walk) :
    List CompoundRule → List Evidence → Walk
  | rule :: rules, seen :: evidence =>
      match seen.verdict with
      | some node =>
          Walk.conclude file (walk.report file rule.id node rule.message)
            rules evidence
      | none => Walk.conclude file walk rules evidence
  | _, _ => walk

/-- Walk the nodes of a file in order, appending violations to the sink. -/
def walkNodes (rules : RuleSet) (file : String) (nodes : List Node)
    (sink : List Violation) : List Violation × WalkSummary :=
  let start : Walk :=
    { sink := sink, evidence := rules.compoundRules.map fun _ => {} }
  let seen := nodes.foldl (Walk.visit rules file) start
  let done := seen.conclude file rules.compoundRules seen.evidence
  (done.sink, done.summary)

end WebConfigAudit
