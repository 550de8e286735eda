import WebConfigAudit.Audit.Analyzer
import WebConfigAudit.Audit.Result
import WebConfigAudit.Suppression.Directive
import WebConfigAudit.Target.Eligibility
/-!
Auditing files: what is found in one of them, and the result for many.
-/

namespace WebConfigAudit

/-- Analyze a configuration if it is looked at.  Violations are appended to the
sink; nothing is appended unless the outcome is `analyzed`. -/
def Analyzer.introduce (a : Analyzer) (tree : FileTree) (target : Target)
    (sink : List Violation) : FileOutcome × List Violation :=
  if !tree.isEligible target then (.ineligible, sink)
  else if !a.hasReader then (.noReader, sink)
  else match tree.readText target.config with
    | .error _ => (.unreadable, sink)
    | .ok source => a.analyzeSource target.config.text source sink

/-- Separate what was found in a file by the suppressions that it writes down.
The file is not read again if nothing was found, and nothing is suppressed if it
cannot be read. -/
def FileTree.splitFound (tree : FileTree) (path : Path)
    (found : List Violation) : List Violation × List SuppressedViolation :=
  if found.isEmpty then (found, [])
  else match tree.readText path with
    | .error _ => (found, [])
    | .ok content =>
        let suppressions := readSuppressions path.text content
        if suppressions.isEmpty then (found, [])
        else splitSuppressed suppressions found

def Analyzer.audit (a : Analyzer) (tree : FileTree) (target : Target) :
    AuditResult :=
  match a.introduce tree target [] with
  | (.analyzed _, found) =>
      let split := tree.splitFound target.config found
      { violations := split.1, suppressed := split.2, scanned := 1 }
  | (.unreadable, _) => { failed := [target.config.text] }
  | (.malformed, _) => { failed := [target.config.text] }
  | (.ineligible, _) => {}
  | (.noReader, _) => {}

/-- The result for some files, with its violations in sorted order. -/
def Analyzer.run (a : Analyzer) (tree : FileTree) (targets : List Target) :
    AuditResult :=
  ((targets.map (a.audit tree)).foldl AuditResult.merge {}).sorted

end WebConfigAudit
