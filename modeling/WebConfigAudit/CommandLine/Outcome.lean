import WebConfigAudit.Contract.Load
/-!
What a command leaves behind besides changed files: its exit code and its
output.
-/

namespace WebConfigAudit

structure CommandOutcome where
  exitCode : Nat := 0
  output : String := ""
  errors : String := ""
deriving DecidableEq, Repr

namespace CommandOutcome

/-- Text made of whole lines. -/
def unlines (lines : List String) : String :=
  String.join (lines.map fun line => line ++ "\n")

/-- The outcome of a command that cannot do what it is asked to. -/
def failure (message : String) (more : List String) : CommandOutcome :=
  { exitCode := 2, errors := unlines (("Error: " ++ message) :: more) }

/-- The outcome of a command that has no rules to work with. -/
def noRules (e : LoadError) : CommandOutcome := failure e.message []

end CommandOutcome

end WebConfigAudit
