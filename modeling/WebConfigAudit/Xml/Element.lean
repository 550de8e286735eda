import WebConfigAudit.Xml.Namespace
import WebConfigAudit.Xml.Reference
/-!
The elements of a document, in the order in which they start.
-/

namespace WebConfigAudit.Xml

open Text (Cursor Position)

/-- An element starts, or the innermost open one ends. -/
inductive Event where
  | opened (name : List Char) (start : Cursor)
  | closed (stop : Position)
deriving Repr

/-- An element that is open, with the bindings in force inside it. -/
structure OpenElement where
  name : QName
  scope : List Binding
deriving DecidableEq, Repr

/-- A document under way: the open elements, the innermost first, what the
current start tag has said, whether a start tag was met since the text of the
current entity began, the count of references, and the events so far, the latest
first. -/
structure Progress where
  opened : List OpenElement := []
  pending : Pending := {}
  tagMet : Bool := false
  references : Nat := 0
  events : List Event := []

/-- The bindings around the next element. -/
def Progress.around (p : Progress) : List Binding :=
  match p.opened with
  | [] => []
  | element :: _ => element.scope

/-- Settle what the current start tag has said: the bindings inside it. -/
def Progress.settle? (p : Progress) : Option (List Binding × Progress) :=
  let scope := p.pending.scope p.around
  if p.pending.isProper scope then some (scope, { p with pending := {} })
  else none

def Progress.addAttributes (entities : List Entity) (levels : Nat)
    (p : Progress) (attributes : List Attribute) : Option Progress :=
  attributes.foldlM (fun p a => do
    let (value, references) ← expandValue entities levels p.references a.value
    let pending ← p.pending.add? a.name value
    return { p with pending := pending, references := references }) p

/-- Take a start tag; one that is cut off leaves what it said to the next. -/
def Progress.start (entities : List Entity) (levels : Nat) (p : Progress)
    (tag : StartTag) :
    Option Progress := do
  let p ← { p with tagMet := true }.addAttributes entities levels tag.attributes
  if tag.ending = .cutOff then return p
  else
    let (scope, p) ← p.settle?
    let _ ← resolve? scope tag.name.qualifier
    let opened := Event.opened tag.name.localName tag.start :: p.events
    if tag.ending = .empty then
      return { p with events := .closed tag.stop :: opened }
    else return { p with opened := ⟨tag.name, scope⟩ :: p.opened,
                         events := opened }

/-- Take an end tag, which must have the name of the innermost open element. -/
def Progress.finish (p : Progress) (name : QName) (stop : Position) :
    Option Progress := do
  if p.tagMet then
    let (_, p) ← p.settle?
    match p.opened with
    | [] => none
    | element :: outer =>
        if element.name = name then
          return { p with opened := outer, events := .closed stop :: p.events }
        else none
  else none

/-- Take a run of text; `enter` takes the pieces of an entity's value. -/
def Progress.takeText (entities : List Entity) (depth : Nat)
    (enter : Progress → List Piece → Option Progress) (p : Progress)
    (run : Cursor) :
    Option Progress := do
  (← itemsOf run).foldlM (fun p item => do
    match item with
    | .reference (.entity name) =>
        let entity ← findEntity? entities name
        let references ← countReference depth p.references
        let inside ← enter { p with tagMet := false, references := references }
          (← readContent entity.value)
        return { inside with
          tagMet := p.tagMet, references := if depth = 0 then 0
            else inside.references }
    | _ => return p) p

def Progress.take (entities : List Entity) (levels : Nat)
    (enter : Progress → List Piece → Option Progress) (p : Progress) :
    Piece → Option Progress
  | .tag t => p.start entities levels t
  | .endTag name stop => p.finish name stop
  | .text run => p.takeText entities (maxDepth - levels) enter run
  | .ignored => some p

/-- Take pieces in order; `levels` is how much deeper references may lie. -/
def Progress.takeAll (entities : List Entity) :
    Nat → Progress → List Piece → Option Progress
  | 0, p, pieces => pieces.foldlM (Progress.take entities 0 fun _ _ => none) p
  | levels + 1, p, pieces =>
      pieces.foldlM
        (Progress.take entities (levels + 1) (Progress.takeAll entities levels))
        p

/-- The events of a document, all elements closed in the end. -/
def Document.events? (document : Document) : Option (List Event) := do
  let p ← Progress.takeAll document.entities maxDepth {} document.pieces
  if p.opened.isEmpty && !p.events.isEmpty then some p.events.reverse else none

/-- An element: its local name, where it starts, and the place after it. -/
structure Element where
  name : List Char
  start : Cursor
  stop : Position
deriving Repr

/-- Where the element ends that is `depth` levels around the events to come. -/
def stopOf? : Nat → List Event → Option Position
  | _, [] => none
  | depth, .opened _ _ :: events => stopOf? (depth + 1) events
  | 0, .closed stop :: _ => some stop
  | depth + 1, .closed _ :: events => stopOf? depth events

/-- The elements among the events, in the order in which they start. -/
def elementsOf : List Event → List Element
  | [] => []
  | .opened name start :: events =>
      ((stopOf? 0 events).toList.map fun stop => ⟨name, start, stop⟩) ++
        elementsOf events
  | .closed _ :: events => elementsOf events

def elements? (text : Cursor) : Option (List Element) := do
  let document ← readDocument text
  return elementsOf (← document.events?)

end WebConfigAudit.Xml
