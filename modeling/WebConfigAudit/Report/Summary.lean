import WebConfigAudit.Audit.Violation
/-!
What the reports have in common: how they name this tool, and how many
violations each rule has.
-/

namespace WebConfigAudit

def Tool.name : String := "webcfg-guard"

def Tool.version : String := "0.1.0"

structure RuleCount where
  rule : String
  count : Nat
deriving DecidableEq, Repr

/-- Larger counts come first, and rules with equal counts by name. -/
def RuleCount.le (a b : RuleCount) : Bool :=
  decide (b.count < a.count) ||
    (a.count == b.count && (compare a.rule b.rule).isLE)

/-- The rules that occur, each once. -/
def violatedRules (violations : List Violation) : List String :=
  (violations.map Violation.rule).eraseDups

def breakdown (violations : List Violation) : List RuleCount :=
  ((violatedRules violations).map fun rule =>
    ⟨rule, violations.countP fun v => v.rule == rule⟩).mergeSort RuleCount.le

end WebConfigAudit
