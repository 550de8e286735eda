import WebConfigAudit.Suppression.Basic
/-!
The result of auditing some files.
-/

namespace WebConfigAudit

/-- The violations that stand, those that are suppressed, how many files were
analyzed, and the files that could not be. -/
structure AuditResult where
  violations : List Violation := []
  suppressed : List SuppressedViolation := []
  scanned : Nat := 0
  failed : List String := []
deriving DecidableEq, Repr

def AuditResult.merge (a b : AuditResult) : AuditResult where
  violations := a.violations ++ b.violations
  suppressed := a.suppressed ++ b.suppressed
  scanned := a.scanned + b.scanned
  failed := a.failed ++ b.failed

def AuditResult.hasViolations (r : AuditResult) : Bool :=
  !r.violations.isEmpty

def AuditResult.countFor (r : AuditResult) (rule : String) : Nat :=
  r.violations.countP fun v => v.rule == rule

/-- The result with its standing violations in sorted order. -/
def AuditResult.sorted (r : AuditResult) : AuditResult :=
  { r with violations := Violation.sort r.violations }

end WebConfigAudit
