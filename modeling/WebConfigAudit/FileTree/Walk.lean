import WebConfigAudit.FileTree.Basic
/-!
The files in a directory and all directories below it.
-/

namespace WebConfigAudit

namespace FileTree

/-- The files below a directory.  What stands in a directory is told by its
listing.  Symbolic links are followed, except one to a directory that the walk
is in; `enter` tells by its name whether a directory is entered.  `above` are
the directories that the walk is in, and `fuel` bounds how deep it goes. -/
def filesFrom (tree : FileTree) (enter : String → Bool) :
    Nat → List Location → Path → List Path
  | 0, _, _ => []
  | fuel + 1, above, directory =>
      match tree.find true directory with
      | .ok (place, .directory) => (tree.namesAt place).flatMap fun name =>
          let path := directory.join name
          let descend (inside : Location) : List Path :=
            if enter name then tree.filesFrom enter fuel (inside :: above) path
            else []
          match tree.item? (place ++ [name]) with
          | some (.file _) => [path]
          | some .directory => descend (place ++ [name])
          | some (.link _) =>
              match tree.find true path with
              | .ok (_, .file _) => [path]
              | .ok (inside, .directory) =>
                  if above.contains inside then [] else descend inside
              | _ => []
          | none => []
      | _ => []

/-- How deep a walk can go: through every directory below every link. -/
def depthLimit (tree : FileTree) : Nat :=
  (tree.items.length + 2) * (tree.items.length + 2)

/-- The files in the directory that a path leads to, and below it. -/
def filesBelow (tree : FileTree) (enter : String → Bool) (root : Path) :
    List Path :=
  match tree.find true root with
  | .ok (place, .directory) => tree.filesFrom enter tree.depthLimit [place] root
  | _ => []

end FileTree

end WebConfigAudit
