/-!
Classes of characters, the blanks at the ends of a text, and names that are
compared without regard to the case of their basic Latin letters.  A value in a
configuration file is trimmed of every character that has the white-space
property, not only of the blanks a keyboard makes.
-/

namespace WebConfigAudit.Text

/-- Whether the code point of `c` lies in a range, both ends included. -/
def inRanges (ranges : List (Nat × Nat)) (c : Char) : Bool :=
  ranges.any fun range => range.1 ≤ c.toNat && c.toNat ≤ range.2

def isDigit (c : Char) : Bool :=
  '0' ≤ c && c ≤ '9'

def isLatinLetter (c : Char) : Bool :=
  ('a' ≤ c && c ≤ 'z') || ('A' ≤ c && c ≤ 'Z')

/-- The characters with the white-space property. -/
def blankRanges : List (Nat × Nat) :=
  [(0x9, 0xd), (0x20, 0x20), (0x85, 0x85), (0xa0, 0xa0), (0x1680, 0x1680),
   (0x2000, 0x200a), (0x2028, 0x2029), (0x202f, 0x202f), (0x205f, 0x205f),
   (0x3000, 0x3000)]

def isBlank (c : Char) : Bool :=
  inRanges blankRanges c

def trimStart (cs : List Char) : List Char :=
  cs.dropWhile isBlank

def trimEnd (cs : List Char) : List Char :=
  (cs.reverse.dropWhile isBlank).reverse

def trimChars (cs : List Char) : List Char :=
  trimEnd (trimStart cs)

/-- The text without the blanks at its ends. -/
def trim (s : String) : String :=
  String.ofList (trimChars s.toList)

/-- Whether every character of the text is blank; so is the empty text. -/
def isBlankText (s : String) : Bool :=
  s.toList.all isBlank

/-- Whether two texts differ at most in the case of the letters `a` to `z`. -/
def sameLetters (a b : String) : Bool :=
  a.toList.map Char.toLower == b.toList.map Char.toLower

theorem sameLetters_iff {a b : String} :
    sameLetters a b = true ↔
      a.toList.map Char.toLower = b.toList.map Char.toLower := by
  simp [sameLetters]

theorem sameLetters_refl (a : String) : sameLetters a a = true := by
  simp [sameLetters]

end WebConfigAudit.Text
