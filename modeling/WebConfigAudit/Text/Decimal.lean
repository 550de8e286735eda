import WebConfigAudit.Text.CharClass
/-!
Decimal numerals of at most sixty-four bits.
-/

namespace WebConfigAudit.Text

def digitValue (c : Char) : Nat :=
  c.toNat - '0'.toNat

/-- The number that digits stand for, the most significant first. -/
def digitsValue (cs : List Char) : Nat :=
  cs.foldl (fun n c => 10 * n + digitValue c) 0

/-- The digits of a number, without leading zeros. -/
def decimalDigits (n : Nat) : List Char :=
  Nat.toDigits 10 n

def decimal (n : Nat) : String :=
  String.ofList (decimalDigits n)

/-- A number below `2 ^ 64`, as a word. -/
def wordOfNat? (n : Nat) : Option UInt64 :=
  if n < UInt64.size then some (UInt64.ofNat n) else none

/-- Read a numeral made of digits alone.  Signs, separators, an empty text and
numbers of `2 ^ 64` or more are refused. -/
def readDecimal (cs : List Char) : Option UInt64 :=
  if cs ≠ [] ∧ cs.all isDigit = true then wordOfNat? (digitsValue cs) else none

/-- Read a numeral that may have a plus sign before its digits. -/
def readSignedDecimal : List Char → Option UInt64
  | '+' :: digits => readDecimal digits
  | digits => readDecimal digits

end WebConfigAudit.Text
