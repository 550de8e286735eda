import WebConfigAudit.Text.Binary64
import WebConfigAudit.Yaml.Character
/-!
What the text of an unquoted scalar means: nothing, a truth value, a number or
the text itself.
-/

namespace WebConfigAudit.Yaml

open Text (isDigit)

/-- The meaning of an unquoted scalar.  Of a number that is no integer only its
spelling is kept. -/
inductive PlainValue where
  | null
  | bool (value : Bool)
  | integer (value : Int)
  | floating (spelling : String)
  | text
deriving DecidableEq, Repr

def isNullWord (cs : List Char) : Bool :=
  ["null", "Null", "NULL", "~"].any fun word => word.toList == cs

def boolWord? (cs : List Char) : Option Bool :=
  if ["true", "True", "TRUE"].any fun word => word.toList == cs then some true
  else if ["false", "False", "FALSE"].any fun word => word.toList == cs then
    some false
  else none

/-- Digits after a zero at the front make a text and no number. -/
def isZeroPadded (cs : List Char) : Bool :=
  let digits := match cs with
    | '-' :: digits => digits
    | '+' :: digits => digits
    | digits => digits
  match digits with
  | '0' :: d :: others => (d :: others).all isDigit
  | _ => false

/-- The number that some digits of a base up to sixteen stand for. -/
def digitsIn? (base : Nat) (cs : List Char) : Option Nat :=
  if cs ≠ [] ∧
    cs.all (fun c => isHexDigit c && decide (hexValue c < base)) = true then
    some (cs.foldl (fun n c => base * n + hexValue c) 0)
  else none

/-- Digits, or the mark of a base and digits of that base. -/
def magnitude? (cs : List Char) : Option Nat :=
  match cs with
  | '0' :: 'x' :: digits => digitsIn? 16 digits
  | '0' :: 'o' :: digits => digitsIn? 8 digits
  | '0' :: 'b' :: digits => digitsIn? 2 digits
  | digits => if isZeroPadded digits then none else digitsIn? 10 digits

/-- The sizes of 128 bits: `2 ^ 128`. -/
def wideLimit : Nat := 0x100000000000000000000000000000000

/-- The integer that the text stands for.  Integers of more than 128 bits are
not known as such. -/
def integer? (cs : List Char) : Option Int :=
  match cs with
  | '-' :: digits =>
      (magnitude? digits).bind fun n =>
        if 2 * n ≤ wideLimit then some (-(n : Int)) else none
  | '+' :: digits =>
      (magnitude? digits).bind fun n =>
        if n < wideLimit then some (n : Int) else none
  | digits =>
      (magnitude? digits).bind fun n =>
        if n < wideLimit then some (n : Int) else none

/-- Digits with a point somewhere and perhaps an exponent. -/
def decimalFraction? (cs : List Char) : Option Text.DecimalFraction :=
  let whole := cs.takeWhile isDigit
  let rest := cs.dropWhile isDigit
  let (places, rest) := match rest with
    | '.' :: after => (after.takeWhile isDigit, after.dropWhile isDigit)
    | rest => ([], rest)
  let exponent : Option Int := match rest with
    | [] => some 0
    | e :: after =>
        if e = 'e' ∨ e = 'E' then match after with
          | '-' :: digits => (digitsIn? 10 digits).map fun n => -(n : Int)
          | '+' :: digits => (digitsIn? 10 digits).map fun n => (n : Int)
          | digits => (digitsIn? 10 digits).map fun n => (n : Int)
        else none
  if whole.isEmpty && places.isEmpty then none
  else exponent.map fun e =>
    ⟨Text.digitsValue (whole ++ places), e - (places.length : Int)⟩

/-- The spelling of a number that is no integer. -/
def floating? (cs : List Char) : Option String :=
  let negative := cs.head? == some '-'
  let size := if negative || cs.head? == some '+' then cs.tail else cs
  if [".nan", ".NaN", ".NAN"].any fun word => word.toList == cs then some "NaN"
  else if [".inf", ".Inf", ".INF"].any fun word => word.toList == size then
    some (if negative then "-inf" else "inf")
  else
    (decimalFraction? size).bind fun d =>
      (Text.Binary64.nearest? d).map fun x =>
        (if negative then "-" else "") ++ x.shortest.positional

/-- What the text of an unquoted scalar means. -/
def PlainValue.ofText (cs : List Char) : PlainValue :=
  if cs.isEmpty || isNullWord cs then .null
  else match boolWord? cs with
    | some value => .bool value
    | none => match integer? cs with
      | some value => .integer value
      | none =>
          if isZeroPadded cs then .text
          else match floating? cs with
            | some spelling => .floating spelling
            | none => .text

end WebConfigAudit.Yaml
