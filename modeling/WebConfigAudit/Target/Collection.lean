import WebConfigAudit.Contract.Exclusion
import WebConfigAudit.FileTree.Walk
import WebConfigAudit.Project
/-!
Finding the configurations under a path, each with the nearest project at or
above it.
-/

namespace WebConfigAudit

/-- The directories that never hold a project's own configuration. -/
def skippedDirectories : List String :=
  ["bin", "obj", "node_modules", "packages"]

/-- Whether the search enters a directory of this name; it does not if the name
starts with a dot. -/
def entersDirectory (name : String) : Bool :=
  name.toList.head? != some '.' &&
    !skippedDirectories.any fun skipped => Text.sameLetters skipped name

def Path.sort (paths : List Path) : List Path :=
  paths.mergeSort fun p q => (p.compare q).isLE

namespace FileTree

/-- The configurations that a path asks for: the path itself if it leads to one,
those beside it if it leads to a project file, and those below it if it leads to
a directory. -/
def configsAt (tree : FileTree) (root : Path) : Except FileError (List Path) :=
  if tree.isFile root then
    if root.isTargetName then .ok [root]
    else if root.isProjectFile then
      match root.parent? with
      | some directory =>
          (tree.list directory).map fun paths =>
            paths.filter fun path => tree.isFile path && path.isTargetName
      | none => .ok []
    else .ok []
  else .ok ((tree.filesBelow entersDirectory root).filter Path.isTargetName)

/-- The first project file in a directory, by the order of paths. -/
def projectIn? (tree : FileTree) (directory : Path) : Option Path :=
  match tree.list directory with
  | .ok paths =>
      (Path.sort (paths.filter fun path => tree.isFile path &&
        path.isProjectFile)).head?
  | .error _ => none

/-- The project file in a directory or in the nearest one above it. -/
def nearestProject? (tree : FileTree) (directory : Path) : Option Path :=
  directory.ancestors.findSome? tree.projectIn?

/-- The configurations that a path asks for, in the order of their paths.  Those
that the contract leaves out and those without a project are left out. -/
def targets (tree : FileTree) (contract : Contract) (root : Path) :
    Except FileError (List Target) :=
  (tree.configsAt root).map fun configs =>
    (Path.sort configs).filterMap fun config =>
      if contract.excludes ((config.stripBase? root).getD config).text then none
      else
        (tree.nearestProject? (config.parent?.getD root)).map fun project =>
          ⟨config, project⟩

end FileTree

end WebConfigAudit
