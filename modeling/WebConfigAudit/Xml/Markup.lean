import WebConfigAudit.Xml.Reader
/-!
The pieces that the content of an element is made of.
-/

namespace WebConfigAudit.Xml

open Text (Cursor Position)

/-- An attribute of a start tag; `value` is cut off before the closing quote. -/
structure Attribute where
  name : QName
  value : Cursor
deriving Repr

/-- How a start tag ends: it opens an element, it is an element by itself, or
the text it stands in ends first. -/
inductive TagEnd where
  | opens
  | empty
  | cutOff
deriving DecidableEq, Repr

/-- A start tag: where it starts, its parts, and the place after it. -/
structure StartTag where
  start : Cursor
  name : QName
  attributes : List Attribute
  ending : TagEnd
  stop : Position
deriving Repr

/-- A piece of content.  Comments, processing instructions and literal sections
are checked when they are read and say nothing more. -/
inductive Piece where
  | tag (tag : StartTag)
  | endTag (name : QName) (stop : Position)
  | text (run : Cursor)
  | ignored
deriving Repr

/-- The value of an attribute: neither its own quote mark nor an opening angle
bracket may stand in it. -/
def readValue : Reader Cursor := fun c => do
  let (mark, c) ← readQuoteMark c
  let inside (x : Char) : Bool := x ≠ mark && x ≠ '<'
  if (c.run inside).all isAllowed then
    let after ← char? mark (c.skip inside)
    return (⟨c.run inside, c.pos⟩, after)
  else none

/-- A name, an equals sign with or without blanks around it, and a value. -/
def readAttribute : Reader Attribute := fun c => do
  let (name, c) ← readQName c
  let c ← char? '=' (skipSpaces c)
  let (value, c) ← readValue (skipSpaces c)
  return (⟨name, value⟩, c)

/-- The attributes of a start tag and its end; `fuel` bounds the number of
attributes.  A blank comes before every attribute. -/
def readAttributes : Nat → Reader (List Attribute × TagEnd)
  | 0, _ => none
  | fuel + 1, c =>
      if c.rest.isEmpty then some (([], .cutOff), c)
      else
        let after := skipSpaces c
        match after.rest with
        | [] => none
        | '/' :: _ => (char? '>' after.next).map fun c => (([], .empty), c)
        | '>' :: _ => some (([], .opens), after.next)
        | _ :: _ => do
            let after ← spaces? c
            let (first, c) ← readAttribute after
            let ((others, ending), c) ← readAttributes fuel c
            return ((first :: others, ending), c)

def readStartTag : Reader StartTag := fun start => do
  let c ← char? '<' start
  let (name, c) ← readQName c
  if name.qualifier = "xmlns".toList then none
  else
    let ((attributes, ending), c) ← readAttributes (c.rest.length + 1) c
    return (⟨start, name, attributes, ending, c.pos⟩, c)

def readEndTag : Reader Piece := fun c => do
  let c ← c.expect? ['<', '/']
  let (name, c) ← readQName c
  let c ← char? '>' (skipSpaces c)
  return (.endTag name c.pos, c)

/-- Whether two hyphens stand side by side, or one at the end. -/
def hasLooseHyphens : List Char → Bool
  | [] => false
  | ['-'] => true
  | '-' :: '-' :: _ => true
  | _ :: rest => hasLooseHyphens rest

/-- A comment.  Its text has no two hyphens side by side and none at its end. -/
def skipComment (c : Cursor) : Option Cursor := do
  let c ← c.expect? ['<', '!', '-', '-']
  let (text, c) ← readUntil ['-', '-', '>'] c
  if hasLooseHyphens text then none else some c

/-- A processing instruction, which may not look like a declaration. -/
def skipInstruction (c : Cursor) : Option Cursor := do
  if startsWith "<?xml ".toList c then none
  else
    let c ← c.expect? ['<', '?']
    let (_, c) ← readName c
    let (_, c) ← readUntil ['?', '>'] (skipSpaces c)
    return c

def skipLiteral (c : Cursor) : Option Cursor := do
  let c ← c.expect? "<![CDATA[".toList
  let (_, c) ← readUntil [']', ']', '>'] c
  return c

def readText : Reader Piece := fun c =>
  let run := c.run (· ≠ '<')
  if run.all isAllowed && !Text.occurs [']', ']', '>'] run then
    some (.text ⟨run, c.pos⟩, c.skip (· ≠ '<'))
  else none

def readPiece : Reader Piece := fun c =>
  if startsWith ['<', '!', '-', '-'] c then (skipComment c).map fun c =>
    (.ignored, c)
  else if startsWith ['<', '!'] c then (skipLiteral c).map fun c =>
    (.ignored, c)
  else if startsWith ['<', '?'] c then (skipInstruction c).map fun c =>
    (.ignored, c)
  else if startsWith ['<', '/'] c then readEndTag c
  else if startsWith ['<'] c then (readStartTag c).map fun (tag, c) =>
    (.tag tag, c)
  else readText c

/-- How many elements are open after a piece, if `depth` were open before it. -/
def Piece.depthAfter (depth : Nat) : Piece → Nat
  | .tag t => if t.ending = .opens then depth + 1 else depth
  | .endTag _ _ => depth - 1
  | _ => depth

/-- The pieces up to the end tag that leaves no element open, or to the end of
the text; `fuel` bounds their number. -/
def readPieces : Nat → Nat → Reader (List Piece)
  | 0, _, _ => none
  | fuel + 1, depth, c =>
      if depth = 0 ∨ c.rest.isEmpty then some ([], c)
      else do
        let (piece, c) ← readPiece c
        let (pieces, c) ← readPieces fuel (piece.depthAfter depth) c
        return (piece :: pieces, c)

/-- The pieces of one element, from its start tag on. -/
def readElement : Reader (List Piece) := fun c => do
  let (tag, c) ← readStartTag c
  let (pieces, c) ← readPieces (c.rest.length + 1)
    ((Piece.tag tag).depthAfter 0) c
  return (.tag tag :: pieces, c)

/-- The pieces of a text that stands inside an element. -/
def readContent (c : Cursor) : Option (List Piece) :=
  (readPieces (c.rest.length + 1) 1 c).map Prod.fst

end WebConfigAudit.Xml
