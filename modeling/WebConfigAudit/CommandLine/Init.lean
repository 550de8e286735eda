import WebConfigAudit.CommandLine.Outcome
import WebConfigAudit.Contract.Template
import WebConfigAudit.FileTree.Edit
/-!
The command that writes a contract to start from.
-/

namespace WebConfigAudit

inductive InitError where
  | present (path : Path)
  | directory (cause : FileError)
  | write (cause : FileError)
deriving DecidableEq, Repr

/-- The outcome of a command that did not write a contract. -/
def InitError.outcome : InitError → CommandOutcome
  | .present path =>
      .failure ("file already exists: " ++ path.text)
        ["Remove it or use --output to specify a different path"]
  | .directory cause =>
      .failure ("failed to create directory: " ++ cause.message) []
  | .write cause => .failure ("failed to write contract: " ++ cause.message) []

/-- Take an action on files, with its error as the cause of another. -/
def FileAction.orFail {α : Type} (wrap : FileError → InitError)
    (action : FileAction α) : ExceptT InitError (StateM FileTree) α :=
  ExceptT.mk do
    match ← action.run with
    | .ok value => return .ok value
    | .error cause => return .error (wrap cause)

/-- The directory that has to be made for a file, if any. -/
def directoryFor (path : Path) : Option Path :=
  path.parent?.filter fun parent => !parent.text.isEmpty && !parent.same ⟨"."⟩

/-- Write the contract to start from to a path where there is nothing yet. -/
def writeTemplate (path : Path) : ExceptT InitError (StateM FileTree) Unit := do
  if (← get).isPresent path then throw (.present path)
  match directoryFor path with
  | some directory => (FileAction.makeDirectories directory).orFail .directory
  | none => pure ()
  (FileAction.writeText path contractTemplate).orFail .write

/-- Write a contract and say what to do next. -/
def runInit (tree : FileTree) (path : Path) : CommandOutcome × FileTree :=
  match (writeTemplate path).run.run tree with
  | (.error e, after) => (e.outcome, after)
  | (.ok (), after) =>
      ({ output := CommandOutcome.unlines
          ["Created " ++ path.text, "", "Next steps:",
           "  1. Edit " ++ path.text ++ " to customize for your project",
           "  2. Run: webcfg-guard lint . --contract " ++ path.text] }, after)

end WebConfigAudit
