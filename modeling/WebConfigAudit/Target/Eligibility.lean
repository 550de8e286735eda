import WebConfigAudit.FileTree.Basic
import WebConfigAudit.Project
/-!
Which configurations are looked at: those that stand in the directory of the
project that owns them.
-/

namespace WebConfigAudit

/-- Why it cannot be told whether a configuration is looked at. -/
inductive EligibilityError where
  | inspect (path : Path) (cause : FileError)
  | locate (path : Path) (cause : FileError)
deriving DecidableEq, Repr

def EligibilityError.message : EligibilityError → String
  | .inspect path cause =>
      "cannot inspect " ++ path.text ++ ": " ++ cause.message
  | .locate path cause =>
      "cannot resolve directory " ++ path.text ++ ": " ++ cause.message

/-- The path of the directory that a path leads into. -/
def Path.directory (path : Path) : Path :=
  match path.parent? with
  | some parent => if parent.text.isEmpty then ⟨"."⟩ else parent
  | none => ⟨"."⟩

namespace FileTree

/-- The canonical path of the directory that a path leads into. -/
def directoryOf (tree : FileTree) (path : Path) :
    Except EligibilityError Path :=
  match tree.canonical path.directory with
  | .ok directory => .ok directory
  | .error cause => .error (.locate path.directory cause)

/-- Whether it is a file of the right name in the directory of its project. -/
def eligible (tree : FileTree) (target : Target) :
    Except EligibilityError Bool :=
  match tree.find true target.config with
  | .error cause => .error (.inspect target.config cause)
  | .ok (_, .file _) =>
      if target.config.isTargetName then do
        let configDirectory ← tree.directoryOf target.config
        let projectDirectory ← tree.directoryOf target.project
        return configDirectory == projectDirectory
      else .ok false
  | .ok _ => .ok false

/-- Whether a configuration is looked at; it is not if that cannot be told. -/
def isEligible (tree : FileTree) (target : Target) : Bool :=
  match tree.eligible target with
  | .ok eligible => eligible
  | .error _ => false

end FileTree

end WebConfigAudit
