import WebConfigAudit.Text.CharClass
/-!
The character classes of XML.
-/

namespace WebConfigAudit.Xml

open Text (inRanges isDigit isLatinLetter)

def isSpace (c : Char) : Bool :=
  c == ' ' || c == '\t' || c == '\n' || c == '\r'

/-- The characters a document may hold: no control characters but the blanks of
markup, and not the two code points that are no characters. -/
def isAllowed (c : Char) : Bool :=
  if c.toNat < 0x20 then isSpace c else c.toNat ≠ 0xfffe && c.toNat ≠ 0xffff

/-- Beyond basic Latin, the characters that a name may start with. -/
def nameStartRanges : List (Nat × Nat) :=
  [(0xc0, 0xd6), (0xd8, 0xf6), (0xf8, 0x2ff), (0x370, 0x37d), (0x37f, 0x1fff),
   (0x200c, 0x200d), (0x2070, 0x218f), (0x2c00, 0x2fef), (0x3001, 0xd7ff),
   (0xf900, 0xfdcf), (0xfdf0, 0xfffd), (0x10000, 0xeffff)]

/-- Beyond basic Latin, the further characters that a name may hold. -/
def nameRestRanges : List (Nat × Nat) :=
  [(0xb7, 0xb7), (0x300, 0x36f), (0x203f, 0x2040)]

def isNameStart (c : Char) : Bool :=
  isLatinLetter c || c == '_' || c == ':' || inRanges nameStartRanges c

def isNameChar (c : Char) : Bool :=
  isNameStart c || isDigit c || c == '-' || c == '.' ||
    inRanges nameRestRanges c

end WebConfigAudit.Xml
