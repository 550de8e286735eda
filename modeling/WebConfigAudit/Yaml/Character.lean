import WebConfigAudit.Text.CharClass
/-!
The character classes of YAML, and places in a YAML text.
-/

namespace WebConfigAudit.Yaml

open Text (inRanges isDigit isLatinLetter)

/-- The characters that a text may hold. -/
def printableRanges : List (Nat × Nat) :=
  [(0x9, 0xa), (0xd, 0xd), (0x20, 0x7e), (0x85, 0x85), (0xa0, 0xd7ff),
   (0xe000, 0xfffd), (0x10000, 0x10ffff)]

def isPrintable (c : Char) : Bool :=
  inRanges printableRanges c

def isBreak (c : Char) : Bool :=
  c == '\n' || c == '\r' || c == '\u0085' || c == '\u2028' || c == '\u2029'

/-- The blanks within a line. -/
def isBlank (c : Char) : Bool :=
  c == ' ' || c == '\t'

/-- The characters of anchors, handles and directive names. -/
def isWordChar (c : Char) : Bool :=
  isLatinLetter c || isDigit c || c == '_' || c == '-'

/-- The brackets and the comma of flow collections. -/
def isFlowIndicator (c : Char) : Bool :=
  c == ',' || c == '[' || c == ']' || c == '\x7b' || c == '\x7d'

def isHexDigit (c : Char) : Bool :=
  isDigit c || ('a' ≤ c && c ≤ 'f') || ('A' ≤ c && c ≤ 'F')

def hexValue (c : Char) : Nat :=
  if isDigit c then c.toNat - '0'.toNat
  else if 'a' ≤ c then c.toNat - 'a'.toNat + 10
  else c.toNat - 'A'.toNat + 10

/-- A place in a text: how many characters come before it, and its line and
column, all counted from zero. -/
structure Mark where
  index : Nat
  line : Nat
  column : Nat
deriving DecidableEq, Repr

/-- The characters still to be read, and the place of the first of them. -/
structure Place where
  rest : List Char
  mark : Mark
deriving Repr

namespace Place

def start (cs : List Char) : Place := ⟨cs, ⟨0, 0, 0⟩⟩

def peek (p : Place) : Option Char := p.rest.head?

def peekAt (n : Nat) (p : Place) : Option Char := p.rest[n]?

/-- Pass over `n` characters of a line. -/
def skip (n : Nat) (p : Place) : Place :=
  ⟨p.rest.drop n,
    { p.mark with index := p.mark.index + n, column := p.mark.column + n }⟩

def skipWhile (class_ : Char → Bool) (p : Place) : Place :=
  p.skip (p.rest.takeWhile class_).length

/-- Pass over a line end, and tell how a scalar writes it.  The ends of most
sorts of line are written as a line feed. -/
def skipBreak (p : Place) : List Char × Place :=
  let after (n : Nat) : Place :=
    ⟨p.rest.drop n, ⟨p.mark.index + n, p.mark.line + 1, 0⟩⟩
  match p.rest with
  | '\r' :: '\n' :: _ => (['\n'], after 2)
  | c :: _ =>
      if c = '\u2028' ∨ c = '\u2029' then ([c], after 1)
      else if isBreak c then (['\n'], after 1)
      else ([], p)
  | [] => ([], p)

def isAt (c : Char) (p : Place) : Bool := p.peek == some c

def atEnd (p : Place) : Bool := p.rest.isEmpty

def atBreak (p : Place) : Bool := p.peek.any isBreak

def atLineEnd (p : Place) : Bool := p.atEnd || p.atBreak

def atBlank (p : Place) : Bool := p.peek.any isBlank

/-- Whether a blank, a line end or the end is `n` places further on. -/
def isGapAt (n : Nat) (p : Place) : Bool :=
  match p.peekAt n with
  | none => true
  | some c => isBlank c || isBreak c

/-- Whether a line starts here with three given characters and a gap. -/
def atDocumentMark (c : Char) (p : Place) : Bool :=
  p.mark.column == 0 && [c, c, c].isPrefixOf p.rest && p.isGapAt 3

/-- Whether a line starts here that separates documents. -/
def atDocumentBoundary (p : Place) : Bool :=
  p.atDocumentMark '-' || p.atDocumentMark '.'

/-- Pass over blanks and a comment to the end of the line. -/
def skipToLineEnd (p : Place) : Place :=
  let p := p.skipWhile isBlank
  if p.isAt '#' then p.skipWhile fun c => !isBreak c else p

end Place

end WebConfigAudit.Yaml
