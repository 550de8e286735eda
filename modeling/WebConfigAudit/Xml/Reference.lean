import WebConfigAudit.Text.Decimal
import WebConfigAudit.Xml.Prolog
/-!
References to characters and entities.
-/

namespace WebConfigAudit.Xml

open Text (Cursor isDigit)

inductive Reference where
  | character (c : Char)
  | entity (name : List Char)
deriving DecidableEq, Repr

/-- A character of a text, or a reference in it. -/
inductive Item where
  | plain (c : Char)
  | reference (r : Reference)
deriving DecidableEq, Repr

def hexDigitValue (c : Char) : Nat :=
  if isDigit c then c.toNat - '0'.toNat
  else if 'a' ≤ c then c.toNat - 'a'.toNat + 10
  else c.toNat - 'A'.toNat + 10

def isHexDigit (c : Char) : Bool :=
  isDigit c || ('a' ≤ c && c ≤ 'f') || ('A' ≤ c && c ≤ 'F')

/-- The character with a code point.  A number below `2 ^ 32` that is no code
point stands for the replacement character. -/
def characterOf? (base : Nat) (digits : List Char) : Option Char :=
  let n := digits.foldl (fun n d => base * n + hexDigitValue d) 0
  if digits.isEmpty || UInt32.size ≤ n then none
  else
    let c := if n.isValidChar then Char.ofNat n else '\ufffd'
    if isAllowed c then some c else none

/-- The reference that a predefined name makes. -/
def Reference.ofName (name : List Char) : Reference :=
  if name = "quot".toList then .character '"'
  else if name = "amp".toList then .character '&'
  else if name = "apos".toList then .character '\''
  else if name = "lt".toList then .character '<'
  else if name = "gt".toList then .character '>'
  else .entity name

/-- Read a reference after its ampersand, without its semicolon. -/
def readReferenceBody : Reader Reference := fun c =>
  if startsWith ['#', 'x'] c then
    let c := c.drop 2
    (characterOf? 16 (c.run isHexDigit)).map fun x =>
      (.character x, c.skip isHexDigit)
  else if startsWith ['#'] c then
    let c := c.next
    (characterOf? 10 (c.run isDigit)).map fun x =>
      (.character x, c.skip isDigit)
  else (readName c).map fun (name, c) => (.ofName name, c)

def readReference : Reader Reference := fun c => do
  let (r, c) ← readReferenceBody c
  let c ← char? ';' c
  return (r, c)

/-- The items of a text; `fuel` bounds their number. -/
def readItems : Nat → Cursor → Option (List Item)
  | 0, _ => some []
  | fuel + 1, c =>
      match c.rest with
      | [] => some []
      | x :: _ =>
          if x = '&' then do
            let (r, c) ← readReference c.next
            return .reference r :: (← readItems fuel c)
          else (readItems fuel c.next).map (.plain x :: ·)

/-- The items of a text.  An ampersand that starts no reference is refused. -/
def itemsOf (c : Cursor) : Option (List Item) :=
  readItems c.rest.length c

/-- The entity of a name; the first of several declarations counts. -/
def findEntity? (entities : List Entity) (name : List Char) : Option Entity :=
  entities.find? fun entity => entity.name == name

/-- How deep references may lie in the texts of other references. -/
def maxDepth : Nat := 10

/-- How many references may lie in the text of one reference, at any depth. -/
def maxReferences : Nat := 255

/-- Count a reference; those of the document itself are not limited. -/
def countReference (depth count : Nat) : Option Nat :=
  if depth = 0 then some count
  else if count = maxReferences then none
  else some (count + 1)

/-- The characters of an attribute value with blanks made plain; of a carriage
return and a line feed one is left. -/
def plainBlanks : List Char → List Char
  | [] => []
  | '\r' :: '\n' :: rest => plainBlanks ('\n' :: rest)
  | c :: rest => (if isSpace c then ' ' else c) :: plainBlanks rest

/-- The runs of plain characters, with the references between them. -/
def splitRuns : List Item → List Char × List (Reference × List Char)
  | [] => ([], [])
  | .plain c :: items =>
      let (run, others) := splitRuns items
      (c :: run, others)
  | .reference r :: items =>
      let (run, others) := splitRuns items
      ([], (r, run) :: others)

/-- The value that an attribute has once references are expanded, and the count
of references; `levels` is how much deeper references may lie. -/
def expandValue (entities : List Entity) :
    Nat → Nat → Cursor → Option (List Char × Nat)
  | levels, count, value => do
      let items ← itemsOf value
      let depth := maxDepth - levels
      let (first, others) := splitRuns items
      let (rest, count) ← others.foldlM (fun (done, count) (r, run) => do
        match r with
        | .character c =>
            if depth = 0 then return (done ++ c :: plainBlanks run, count)
            else if c = '<' then none
            else return (done ++ plainBlanks [c] ++ plainBlanks run, count)
        | .entity name =>
            let entity ← findEntity? entities name
            let count ← countReference depth count
            match levels with
            | 0 => none
            | levels + 1 =>
                let (text, count) ← expandValue entities levels count
                  entity.value
                let count := if depth = 0 then 0 else count
                return (done ++ text ++ plainBlanks run, count)) ([], count)
      return (plainBlanks first ++ rest, count)

end WebConfigAudit.Xml
