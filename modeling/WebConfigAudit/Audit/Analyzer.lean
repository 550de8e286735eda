import WebConfigAudit.Audit.Walk
import WebConfigAudit.Source.Configuration
/-!
Applying rules to the text of one file.
-/

namespace WebConfigAudit

inductive FileOutcome where
  | analyzed (summary : WalkSummary)
  | ineligible
  | noReader
  | unreadable
  | malformed
deriving DecidableEq, Repr

/-- Rules, and whether a reader for the elements they look at is in place. -/
structure Analyzer where
  rules : RuleSet
  hasReader : Bool := false
deriving DecidableEq, Repr

def Analyzer.withReader (a : Analyzer) : Analyzer :=
  { a with hasReader := true }

/-- Analyze a text.  Violations are appended to the sink; nothing is appended
unless the outcome is `analyzed`. -/
def Analyzer.analyzeSource (a : Analyzer) (file source : String)
    (sink : List Violation) : FileOutcome × List Violation :=
  if a.hasReader then
    match readConfiguration a.rules.tags source with
    | .error _ => (.malformed, sink)
    | .ok nodes =>
        let (sink, summary) := walkNodes a.rules file nodes sink
        (.analyzed summary, sink)
  else (.noReader, sink)

end WebConfigAudit
