import WebConfigAudit.CommandLine.Init
import WebConfigAudit.CommandLine.Lint
/-!
Running a command on a file tree.  The one that has no module of its own lists
the rules in effect.
-/

namespace WebConfigAudit

/-- How many characters the name of a rule takes at least. -/
def listedNameWidth : Nat := 48

def ruleLine (rules : RuleSet) (id : String) : String :=
  "  " ++ id ++
    String.ofList (List.replicate (listedNameWidth - id.length) ' ') ++ " " ++
    (rules.descriptionOf? id).getD ""

def runRules (tree : FileTree) (contract : Option Path) : CommandOutcome :=
  match tree.loadRules contract with
  | .error e => .noRules e
  | .ok loaded =>
      { output := CommandOutcome.unlines
          (("Rules from " ++ loaded.source ++ ":") :: "" ::
            loaded.rules.ids.map (ruleLine loaded.rules)) }

/-- Run a command: what it leaves behind, and the files afterwards. -/
def Command.run (command : Command) (tree : FileTree) (color : Bool) :
    CommandOutcome × FileTree :=
  match command with
  | .lint arguments => (runLint tree arguments color, tree)
  | .rules contract => (runRules tree contract, tree)
  | .init path => runInit tree path

end WebConfigAudit
