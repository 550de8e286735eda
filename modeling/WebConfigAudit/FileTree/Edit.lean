import WebConfigAudit.FileTree.Basic
import WebConfigAudit.Text.Pieces
/-!
Changing a file tree.  An action that fails may have changed the tree before it
did.
-/

namespace WebConfigAudit

namespace FileTree

/-- Put an item at a place, instead of the one there or behind all others. -/
def put (tree : FileTree) (place : Location) (item : Item) : FileTree :=
  if h : place ∈ tree.items.map Prod.fst then
    { tree with
      items := tree.items.map fun entry =>
        if entry.1 = place then (entry.1, item) else entry
      distinct := by
        have same : ((fun entry : Location × Item =>
            (if entry.1 = place then (entry.1, item) else entry).1)) =
          Prod.fst := by
          funext entry
          split <;> rfl
        simpa [List.map_map, Function.comp_def, same] using tree.distinct }
  else
    { tree with
      items := tree.items ++ [(place, item)]
      distinct := by
        rw [List.map_append, List.nodup_append]
        refine ⟨tree.distinct, by simp, ?_⟩
        intro a ha b hb
        simp only [List.map_cons, List.map_nil, List.mem_singleton] at hb
        subst hb
        exact fun equal => h (equal ▸ ha) }

def drop (tree : FileTree) (place : Location) : FileTree :=
  { tree with
    items := tree.items.filter fun entry => entry.1 != place
    distinct := tree.distinct.sublist (List.filter_sublist.map Prod.fst) }

end FileTree

/-- The first bytes of a text, as the content of a file. -/
def front? (room : Nat) (text : String) : Option String :=
  (Text.splitAtByte? room text.toList).map fun parts => String.ofList parts.1

abbrev FileAction := ExceptT FileError (StateM FileTree)

namespace FileAction

def resolve (follow : Bool) (path : Path) : FileAction Destination := do
  match (← get).resolve follow path with
  | .ok destination => return destination
  | .error e => throw e

def put (place : Location) (item : Item) : FileAction Unit :=
  modify fun tree => tree.put place item

def endsWithSlash (path : Path) : Bool :=
  path.text.toList.getLast? == some '/'

def withoutSlashes (path : Path) : Path :=
  ⟨String.ofList (path.text.toList.reverse.dropWhile (· == '/')).reverse⟩

/-- Give the file at a path a content; it is made if it is not there.  A path
that ends with a slash can only be a directory. -/
def write (path : Path) (content : Option String) : FileAction Unit := do
  if endsWithSlash path then
    if (withoutSlashes path).text.isEmpty then throw .isDirectory
    let _ ← resolve false (withoutSlashes path)
    throw .isDirectory
  match ← resolve true path with
  | .found place (.file _) => put place (.file content)
  | .found _ _ => throw .isDirectory
  | .free parent name slash =>
      if slash then throw .isDirectory
      else put (parent ++ [name]) (.file content)

/-- Write a text to the file at a path.  If the disk is full before the end of
the text, what was written of it stays. -/
def writeText (path : Path) (text : String) : FileAction Unit := do
  match (← get).room.filter fun room => room < text.utf8ByteSize with
  | none => write path (some text)
  | some room => do
      write path (front? room text)
      throw .diskFull

def makeDirectory (path : Path) : FileAction Unit := do
  let bare := withoutSlashes path
  match ← resolve false (if bare.text.isEmpty then path else bare) with
  | .found _ _ => throw .alreadyExists
  | .free parent name _ => put (parent ++ [name]) .directory

/-- Accept that a directory could not be made if the path leads to one. -/
def orIsDirectory (path : Path) (e : FileError) : FileAction Unit := do
  if (← get).isDirectory path then return else throw e

/-- Make a directory and those on the way to it; `fuel` bounds their number. -/
def makeDirectoriesFrom : Nat → Path → FileAction Unit
  | 0, _ => return
  | fuel + 1, path => do
      if path.text.isEmpty then return
      try makeDirectory path
      catch
        | .missing => do
            match path.parent? with
            | some parent => makeDirectoriesFrom fuel parent
            | none => throw .missing
            try makeDirectory path
            catch e => orIsDirectory path e
        | e => orIsDirectory path e

/-- Make a directory and those on the way to it that are not there. -/
def makeDirectories (path : Path) : FileAction Unit :=
  makeDirectoriesFrom (path.text.length + 1) path

def makeLink (target : String) (path : Path) : FileAction Unit := do
  match ← resolve false path with
  | .found _ _ => throw .alreadyExists
  | .free parent name slash =>
      if slash then throw .missing else put (parent ++ [name]) (.link target)

def remove (path : Path) : FileAction Unit := do
  match ← resolve false path with
  | .found _ .directory => throw .isDirectory
  | .found place _ => modify fun tree => tree.drop place
  | .free _ _ _ => throw .missing

end FileAction

end WebConfigAudit
