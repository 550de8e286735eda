import WebConfigAudit.Text.Pieces
import WebConfigAudit.Text.Position
import WebConfigAudit.Xml.Character
/-!
Readers for the small parts of markup: blanks, names and quoted texts.  A reader
takes the place where it starts and gives back what it read with the place where
it stopped, or nothing if the text is not as demanded.
-/

namespace WebConfigAudit.Xml

open Text (Cursor)

abbrev Reader (α : Type) := Cursor → Option (α × Cursor)

/-- A name and its part before the colon, empty if there is none. -/
structure QName where
  qualifier : List Char
  localName : List Char
deriving DecidableEq, Repr

def skipSpaces (c : Cursor) : Cursor :=
  c.skip isSpace

/-- Pass over blanks, of which there must be one. -/
def spaces? (c : Cursor) : Option Cursor :=
  match c.rest with
  | [] => none
  | x :: _ => if isSpace x then some (skipSpaces c) else none

def char? (expected : Char) (c : Cursor) : Option Cursor :=
  match c.rest with
  | [] => none
  | x :: _ => if x = expected then some c.next else none

def startsWith (text : List Char) (c : Cursor) : Bool :=
  text.isPrefixOf c.rest

def readName : Reader (List Char) := fun c =>
  match c.rest with
  | [] => none
  | x :: _ =>
      if isNameStart x then some (c.run isNameChar, c.skip isNameChar) else none

/-- Whether the characters can stand on one side of the colon in a name. -/
def isNamePart (cs : List Char) : Bool :=
  match cs with
  | [] => false
  | x :: _ => isNameStart x

/-- Take a run of name characters apart at its colon. -/
def QName.ofChars? (cs : List Char) : Option QName :=
  let before := cs.takeWhile (· ≠ ':')
  match cs.dropWhile (· ≠ ':') with
  | [] => if isNamePart cs then some ⟨[], cs⟩ else none
  | _ :: after =>
      if (before.isEmpty || isNamePart before) && isNamePart after &&
        !after.contains ':' then
        some ⟨before, after⟩
      else none

/-- A name with at most one colon.  The part before the colon may be empty. -/
def readQName : Reader QName := fun c =>
  (QName.ofChars? (c.run isNameChar)).map fun name => (name, c.skip isNameChar)

/-- The quote mark that opens a text. -/
def readQuoteMark : Reader Char := fun c =>
  match c.rest with
  | [] => none
  | x :: _ => if x = '"' ∨ x = '\'' then some (x, c.next) else none

/-- A text between quote marks, with any characters in it: where it starts, cut
off where it ends. -/
def readQuoted : Reader Cursor := fun c => do
  let (mark, c) ← readQuoteMark c
  let after ← char? mark (c.skip (· ≠ mark))
  return (⟨c.run (· ≠ mark), c.pos⟩, after)

/-- The text before the next occurrence of an ending, and the place after the
ending.  The text may hold allowed characters only. -/
def readUntil (ending : List Char) : Reader (List Char) := fun c => do
  let text ← Text.before? ending c.rest
  if text.all isAllowed then some (text, c.drop (text.length + ending.length))
  else none

end WebConfigAudit.Xml
