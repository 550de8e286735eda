import WebConfigAudit.Xml.Markup
/-!
What stands around the root element of a document: the declaration, comments,
processing instructions, and the document type with its entities.
-/

namespace WebConfigAudit.Xml

open Text (Cursor)

/-- A named text that references expand to. -/
structure Entity where
  name : List Char
  value : Cursor
deriving Repr

/-- After a part of the declaration there is a blank, or its end. -/
def declarationGap? (c : Cursor) : Option Cursor :=
  if startsWith ['?', '>'] c || c.rest.isEmpty then some c else spaces? c

/-- A part of the declaration, told by its first word, that may be missing. -/
def skipPart (word : List Char) (c : Cursor) : Option Cursor :=
  if startsWith word c then (readAttribute c).map Prod.snd else some c

/-- The declaration, of which only the version must be there. -/
def skipDeclaration (c : Cursor) : Option Cursor := do
  let c ← c.expect? "<?xml".toList
  let c ← spaces? c
  if startsWith "version".toList c then
    let c ← skipPart "version".toList c
    let c ← declarationGap? c
    let c ← if startsWith "encoding".toList c then
        (skipPart "encoding".toList c).bind declarationGap?
      else some c
    let c ← skipPart "standalone".toList c
    (skipSpaces c).expect? ['?', '>']
  else none

/-- Comments and processing instructions with blanks around them. -/
def skipMiscFrom : Nat → Cursor → Option Cursor
  | 0, c => some c
  | fuel + 1, c =>
      let c := skipSpaces c
      if startsWith ['<', '!', '-', '-'] c then
        (skipComment c).bind (skipMiscFrom fuel)
      else if startsWith ['<', '?'] c then
        (skipInstruction c).bind (skipMiscFrom fuel)
      else some c

/-- Comments and processing instructions with blanks around them. -/
def skipMisc (c : Cursor) : Option Cursor :=
  skipMiscFrom (c.rest.length + 1) c

/-- The quoted text after a keyword. -/
def skipQuotedAfterSpaces (c : Cursor) : Option Cursor := do
  let c ← spaces? c
  let (_, c) ← readQuoted c
  return c

/-- One quoted text after `SYSTEM`, two after `PUBLIC`. -/
def skipExternal (c : Cursor) : Option Cursor :=
  if startsWith "SYSTEM".toList c then skipQuotedAfterSpaces (c.drop 6)
  else if startsWith "PUBLIC".toList c then
    (skipQuotedAfterSpaces (c.drop 6)).bind skipQuotedAfterSpaces
  else none

/-- The notation that an external entity may name. -/
def skipNotation (c : Cursor) : Option Cursor :=
  if startsWith "NDATA".toList (skipSpaces c) then do
    let c ← spaces? ((skipSpaces c).drop 5)
    let (_, c) ← readName c
    return c
  else some c

/-- An entity, from its keyword on; an external one has no value. -/
def readEntity : Reader (Option Entity) := fun c => do
  let c ← c.expect? "<!ENTITY".toList
  let c ← spaces? c
  let isParameter := startsWith ['%'] c
  let c ← if isParameter then spaces? c.next else some c
  let (name, c) ← readName c
  let c ← spaces? c
  let (entity, c) ←
    match readQuoted c with
    | some (value, c) => some (some (Entity.mk name value), c)
    | none => do
        let c ← skipExternal c
        let c ← if isParameter then some c else skipNotation c
        pure (none, c)
  let c ← char? '>' (skipSpaces c)
  return (entity, c)

/-- A declaration that is passed over, up to its closing bracket. -/
def skipOther (c : Cursor) : Option Cursor :=
  if startsWith "<!ELEMENT".toList c || startsWith "<!ATTLIST".toList c ||
      startsWith "<!NOTATION".toList c then
    char? '>' (c.skip (· ≠ '>'))
  else none

/-- The declarations between the brackets of a document type, with the end of
the document type; `fuel` bounds their number. -/
def readDeclarations : Nat → Reader (List Entity)
  | 0, _ => none
  | fuel + 1, c => do
      let c := skipSpaces c
      if startsWith "<!ENTITY".toList c then
        let (entity, c) ← readEntity c
        let (entities, c) ← readDeclarations fuel c
        return (entity.toList ++ entities, c)
      else if startsWith ['<', '!', '-', '-'] c then
        readDeclarations fuel (← skipComment c)
      else if startsWith ['<', '?'] c then
        readDeclarations fuel (← skipInstruction c)
      else if startsWith [']'] c then
        let c ← char? '>' (skipSpaces c.next)
        return ([], c)
      else readDeclarations fuel (← skipOther c)

def readDocumentType : Reader (List Entity) := fun c => do
  let c ← c.expect? "<!DOCTYPE".toList
  let c ← spaces? c
  let (_, c) ← readName c
  let c := skipSpaces c
  let c ← if startsWith "SYSTEM".toList c || startsWith "PUBLIC".toList c then
    skipExternal c
    else some c
  let c := skipSpaces c
  if startsWith ['['] c then readDeclarations (c.rest.length + 1) c.next
  else (char? '>' c).map fun c => ([], c)

/-- A document: its entities and the pieces of its root element. -/
structure Document where
  entities : List Entity
  pieces : List Piece
deriving Repr

def byteOrderMark : Char := '\ufeff'

def readDocument (text : Cursor) : Option Document := do
  let c := if startsWith [byteOrderMark] text then text.next else text
  let c ← if startsWith "<?xml ".toList c then skipDeclaration c else some c
  let c ← skipMisc c
  let (entities, c) ←
    if startsWith "<!DOCTYPE".toList c then do
      let (entities, c) ← readDocumentType c
      let c ← skipMisc c
      pure (entities, c)
    else some ([], c)
  let (pieces, c) ← readElement c
  let c ← skipMisc c
  if c.rest.isEmpty then some ⟨entities, pieces⟩ else none

end WebConfigAudit.Xml
