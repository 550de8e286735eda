import WebConfigAudit.FileTree.Error
import WebConfigAudit.FileTree.Path
/-!
File trees: which files, directories and symbolic links there are, and what a
path leads to.
-/

namespace WebConfigAudit

/-- A place in a file tree: the names on the way from the root down to it. -/
abbrev Location := List String

def Location.path (place : Location) : Path :=
  ⟨"/" ++ "/".intercalate place⟩

/-- What can stand at a place; a file may have a content that is no text. -/
inductive Item where
  | file (content : Option String)
  | directory
  | link (target : String)
deriving DecidableEq, Repr

/-- The items below the root, in the order in which directories list them, and
the directory from which relative paths start.  No two items stand at one place.
If the disk is nearly full, `room` is the number of bytes that a file can still
be given. -/
structure FileTree where
  items : List (Location × Item) := []
  current : Location := []
  room : Option Nat := none
  distinct : (items.map Prod.fst).Nodup := by simp
deriving Repr

/-- What a path leads to: an item, or a free name in a directory.  `slash` tells
whether the path goes on with a slash after the free name. -/
inductive Destination where
  | found (place : Location) (item : Item)
  | free (parent : Location) (name : String) (slash : Bool)
deriving DecidableEq, Repr

/-- How many symbolic links one path may lead through. -/
def linkLimit : Nat := 40

/-- How many bytes a name and a path may have. -/
def nameLimit : Nat := 255
@[inherit_doc nameLimit] def pathLimit : Nat := 4095

namespace FileTree

/-- The item at a place.  The root is a directory. -/
def item? (tree : FileTree) (place : Location) : Option Item :=
  if place.isEmpty then some .directory
  else (tree.items.find? fun entry => entry.1 == place).map Prod.snd

/-- The names in the directory at a place, in its order. -/
def namesAt (tree : FileTree) (place : Location) : List String :=
  tree.items.filterMap fun entry =>
    if !entry.1.isEmpty && entry.1.dropLast == place then
      entry.1.getLast? else none

/-- Go on from a place by the pieces of a path.  A link on the way is left to
`through`, which is given the directory it stands in, its target and the pieces
after it; a link that comes last only if `follow` says so. -/
def walkPieces (tree : FileTree) (follow : Bool)
    (through : Location → Path → List (List Char) →
      Except FileError Destination)
    (place : Location) : List (List Char) → Except FileError Destination
  | [] =>
      match tree.item? place with
      | some item => .ok (.found place item)
      | none => .error .missing
  | piece :: rest =>
      let name := String.ofList piece
      if tree.item? place ≠ some .directory then .error .notDirectory
      else if Path.isIdle piece then tree.walkPieces follow through place rest
      else if piece = ['.', '.'] then
        tree.walkPieces follow through place.dropLast rest
      else if name.utf8ByteSize > nameLimit then .error .nameTooLong
      else
        match tree.item? (place ++ [name]) with
        | none =>
            if rest.all List.isEmpty then .ok (.free place name (!rest.isEmpty))
            else .error .missing
        | some (.link target) =>
            if rest.isEmpty && !follow then
              .ok (.found (place ++ [name]) (.link target))
            else through place ⟨target⟩ rest
        | some _ => tree.walkPieces follow through (place ++ [name]) rest

/-- Go on by the pieces of a path, through at most `links` symbolic links. -/
def walk (tree : FileTree) (follow : Bool) :
    Nat → Location → List (List Char) → Except FileError Destination
  | 0 => tree.walkPieces follow fun _ _ _ => .error .tooManyLinks
  | links + 1 => tree.walkPieces follow fun place target rest =>
      tree.walk follow links (if target.isAbsolute then [] else place)
        (target.pieces ++ rest)

/-- What a path leads to. -/
def resolve (tree : FileTree) (follow : Bool) (path : Path) :
    Except FileError Destination :=
  if path.text.toList.contains '\x00' then .error .nulCharacter
  else if path.text.isEmpty then .error .missing
  else if path.text.utf8ByteSize > pathLimit then .error .nameTooLong
  else tree.walk follow linkLimit (if path.isAbsolute then [] else tree.current)
    path.pieces

def find (tree : FileTree) (follow : Bool) (path : Path) :
    Except FileError (Location × Item) :=
  match tree.resolve follow path with
  | .ok (.found place item) => .ok (place, item)
  | .ok (.free _ _ _) => .error .missing
  | .error e => .error e

def isPresent (tree : FileTree) (path : Path) : Bool :=
  match tree.find true path with
  | .ok _ => true
  | .error _ => false

def isFile (tree : FileTree) (path : Path) : Bool :=
  match tree.find true path with
  | .ok (_, .file _) => true
  | _ => false

def isDirectory (tree : FileTree) (path : Path) : Bool :=
  match tree.find true path with
  | .ok (_, .directory) => true
  | _ => false

/-- The absolute path, without links, of what a path leads to. -/
def canonical (tree : FileTree) (path : Path) : Except FileError Path :=
  (tree.find true path).map fun found => Location.path found.1

def readText (tree : FileTree) (path : Path) : Except FileError String :=
  match tree.find true path with
  | .ok (_, .file (some text)) => .ok text
  | .ok (_, .file none) => .error .notText
  | .ok (_, .directory) => .error .isDirectory
  | .ok (_, .link _) => .error .tooManyLinks
  | .error e => .error e

/-- The paths of what stands in the directory at a path, in its order. -/
def list (tree : FileTree) (path : Path) : Except FileError (List Path) :=
  match tree.find true path with
  | .ok (place, .directory) => .ok ((tree.namesAt place).map path.join)
  | .ok _ => .error .notDirectory
  | .error e => .error e

end FileTree

end WebConfigAudit
