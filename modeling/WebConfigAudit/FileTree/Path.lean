import WebConfigAudit.Text.CharClass
/-!
Path texts.  A path is read as a list of components; repeated slashes, slashes
at the end and dots that stay in place do not count, except for a dot at the
very front.
-/

namespace WebConfigAudit

structure Path where
  text : String
deriving DecidableEq, Repr

inductive Component where
  | root
  | here
  | up
  | name (text : String)
deriving DecidableEq, Repr

namespace Path

/-- Cut at every slash: one piece more than there are slashes. -/
def cutAtSlashes : List Char → List (List Char)
  | [] => [[]]
  | c :: rest =>
      if c = '/' then [] :: cutAtSlashes rest
      else match cutAtSlashes rest with
        | [] => [[c]]
        | piece :: pieces => (c :: piece) :: pieces

/-- Put pieces together again, with a slash between any two. -/
def joinPieces : List (List Char) → List Char
  | [] => []
  | [piece] => piece
  | piece :: pieces => piece ++ '/' :: joinPieces pieces

def isAbsolute (path : Path) : Bool :=
  path.text.toList.head? == some '/'

/-- The pieces between the slashes, the empty one before the root left out. -/
def pieces (path : Path) : List (List Char) :=
  match path.text.toList with
  | '/' :: rest => cutAtSlashes rest
  | cs => cutAtSlashes cs

/-- Whether a piece makes no step: it is empty, or a dot. -/
def isIdle (piece : List Char) : Bool :=
  piece == [] || piece == ['.']

def componentOf (piece : List Char) : Component :=
  if piece = ['.', '.'] then .up else .name (String.ofList piece)

/-- Whether the path starts with a dot as its first piece. -/
def startsHere (path : Path) : Bool :=
  !path.isAbsolute && path.pieces.head? == some ['.']

def components (path : Path) : List Component :=
  (if path.isAbsolute then [.root] else if path.startsHere then [.here]
    else []) ++
    (path.pieces.filter fun piece => !isIdle piece).map componentOf

def same (p q : Path) : Bool :=
  p.components == q.components

def fileName? (path : Path) : Option String :=
  match path.components.getLast? with
  | some (.name text) => some text
  | _ => none

/-- What follows the last dot of a file name, unless the name starts with it. -/
def extension? (path : Path) : Option String :=
  match path.fileName? with
  | none => none
  | some name =>
      let backwards := name.toList.reverse
      match backwards.dropWhile (· ≠ '.') with
      | [] => none
      | [_] => none
      | _ :: _ :: _ =>
          some (String.ofList (backwards.takeWhile (· ≠ '.')).reverse)

def dropIdleEnd (pieces : List (List Char)) : List (List Char) :=
  (pieces.reverse.dropWhile isIdle).reverse

/-- The part of a path that its pieces after the front write, and the front
itself: the root slash, the dot at the front, or nothing. -/
def frontAndBody (path : Path) : List Char × List (List Char) :=
  if path.isAbsolute then (['/'], path.pieces)
  else if path.startsHere then (['.'], path.pieces.tail)
  else ([], path.pieces)

/-- The text of a front and the pieces after it. -/
def ofFrontAndBody (front : List Char) (body : List (List Char)) : Path :=
  ⟨String.ofList (
    if body.isEmpty then front
    else if front = ['.'] then '.' :: '/' :: joinPieces body
    else front ++ joinPieces body)⟩

/-- The path without its last step, if it has one. -/
def parent? (path : Path) : Option Path :=
  let (front, body) := path.frontAndBody
  match (dropIdleEnd body).reverse with
  | _ :: others => some (ofFrontAndBody front (dropIdleEnd others.reverse))
  | [] => if front = ['.'] then some ⟨""⟩ else none

/-- The path, the path without its last step, and so on. -/
def ancestorsFrom : Nat → Path → List Path
  | 0, path => [path]
  | fuel + 1, path =>
      path :: match path.parent? with
        | some parent => ancestorsFrom fuel parent
        | none => []

/-- The path and all paths above it, nearest first. -/
def ancestors (path : Path) : List Path :=
  ancestorsFrom path.text.length path

/-- Continue a path.  An absolute continuation stands alone. -/
def join (base : Path) (other : String) : Path :=
  if other.toList.head? = some '/' then ⟨other⟩
  else if base.text.toList = [] ∨ base.text.toList.getLast? = some '/' then
    ⟨base.text ++ other⟩
  else ⟨base.text ++ "/" ++ other⟩

/-- Drop `n` pieces that make a step, and the idle ones before them. -/
def dropSteps : Nat → List (List Char) → List (List Char)
  | 0, pieces => pieces
  | _ + 1, [] => []
  | n + 1, piece :: pieces =>
      if isIdle piece then dropSteps (n + 1) pieces else dropSteps n pieces

/-- What is left of a path behind the steps of another, if it has them. -/
def stripBase? (path base : Path) : Option Path :=
  let steps := base.components
  if steps.isPrefixOf path.components then
    let (front, body) := path.frontAndBody
    if steps.isEmpty then some (ofFrontAndBody front (dropIdleEnd body))
    else
      let left := dropSteps (steps.length - if front.isEmpty then 0 else 1) body
      some (ofFrontAndBody [] (dropIdleEnd (left.dropWhile isIdle)))
  else none

end Path

/-- The place of a component's sort in the order of paths. -/
def Component.rank : Component → Nat
  | .root => 0
  | .here => 1
  | .up => 2
  | .name _ => 3

/-- The root first, then the dot, then steps upwards, then names. -/
def Component.compare : Component → Component → Ordering
  | .name a, .name b => Ord.compare a b
  | a, b => Ord.compare a.rank b.rank

/-- Component by component; the shorter of two paths that agree comes first. -/
def Component.compareLists : List Component → List Component → Ordering
  | [], [] => .eq
  | [], _ :: _ => .lt
  | _ :: _, [] => .gt
  | a :: as, b :: bs => (a.compare b).then (Component.compareLists as bs)

/-- Paths are ordered by their steps. -/
def Path.compare (p q : Path) : Ordering :=
  Component.compareLists p.components q.components

end WebConfigAudit
