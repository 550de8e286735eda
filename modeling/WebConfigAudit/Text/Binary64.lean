import WebConfigAudit.Text.Decimal
/-!
Decimal fractions and the numbers of a floating-point format with fifty-three
bits: which of them is nearest to a decimal fraction, and the shortest decimal
fraction that it is nearest to.  All of it is arithmetic on natural numbers.
-/

namespace WebConfigAudit.Text

/-- The number `digits * 10 ^ exponent`. -/
structure DecimalFraction where
  digits : Nat
  exponent : Int
deriving DecidableEq, Repr

/-- The number `significand * 2 ^ exponent` of the format. -/
structure Binary64 where
  significand : Nat
  exponent : Int
deriving DecidableEq, Repr

/-- The number `n * base ^ exponent` as a numerator and a denominator. -/
def scaled (base n : Nat) (exponent : Int) : Nat × Nat :=
  if 0 ≤ exponent then (n * Nat.pow base exponent.toNat, 1)
  else (n, Nat.pow base (-exponent).toNat)

/-- The whole number nearest to a quotient; halves go to the even one. -/
def roundHalfEven (num den : Nat) : Nat :=
  let whole := num / den
  let rest := num % den
  if 2 * rest < den ∨ (2 * rest = den ∧ whole % 2 = 0) then whole else whole + 1

namespace Binary64

/-- The leading bit of a significand: `2 ^ 52`. -/
def leadingBit : Nat := 0x10000000000000

def leastExponent : Int := -1074

def greatestExponent : Int := 971

/-- The number of the format whose leading bit has the value `2 ^ lead` and
which is nearest to a quotient, unless it is too great. -/
def roundAt (lead : Int) (num den : Nat) : Option Binary64 :=
  let exponent := max (lead - 52) leastExponent
  let significand :=
    if 0 ≤ exponent then roundHalfEven num (den * Nat.pow 2 exponent.toNat)
    else roundHalfEven (num * Nat.pow 2 (-exponent).toNat) den
  let rounded : Binary64 :=
    if significand = 2 * leadingBit then ⟨leadingBit, exponent + 1⟩
    else ⟨significand, exponent⟩
  if rounded.exponent > greatestExponent then none else some rounded

/-- The number of the format that is nearest to a decimal fraction, unless the
fraction is too great for the format. -/
def nearest? (d : DecimalFraction) : Option Binary64 :=
  let top := d.exponent + ((decimalDigits d.digits).length : Int)
  if d.digits = 0 ∨ top < -330 then some ⟨0, leastExponent⟩
  else if top > 310 then none
  else
    let (num, den) := scaled 10 d.digits d.exponent
    let guess : Int := (num.log2 : Int) - (den.log2 : Int)
    let below : Bool :=
      if 0 ≤ guess then num < den * Nat.pow 2 guess.toNat
      else num * Nat.pow 2 (-guess).toNat < den
    roundAt (if below then guess - 1 else guess) num den

/-- Whether `p * 10 ^ k` is at most `n * 2 ^ e`. -/
def decimalLe (p : Nat) (k : Int) (n : Nat) (e : Int) : Bool :=
  let (a, b) := scaled 10 p k
  let (c, d) := scaled 2 n e
  a * d ≤ c * b

/-- Whether `p * 10 ^ k` is at least `n * 2 ^ e`. -/
def decimalGe (p : Nat) (k : Int) (n : Nat) (e : Int) : Bool :=
  let (a, b) := scaled 10 p k
  let (c, d) := scaled 2 n e
  c * b ≤ a * d

/-- Whether no other number of the format is as near to `p * 10 ^ k`. -/
def isNearest (x : Binary64) (p : Nat) (k : Int) : Bool :=
  let e := x.exponent - 2
  let low := if x.significand = leadingBit ∧
    x.exponent > leastExponent then 1 else 2
  let least := 4 * x.significand - low
  let greatest := 4 * x.significand + 2
  if x.significand % 2 = 0 then decimalGe p k least e &&
    decimalLe p k greatest e
  else !decimalLe p k least e && !decimalGe p k greatest e

/-- The multiple of `10 ^ k` that is nearer to `x` than to any other number of
the format, if there is one; of two the nearer to `x`. -/
def onGrid? (x : Binary64) (k : Int) : Option DecimalFraction :=
  let (num, den) := scaled 2 x.significand x.exponent
  let (gridNum, gridDen) := scaled 10 1 k
  let below := num * gridDen / (den * gridNum)
  let hit (p : Nat) : Bool := p ≠ 0 && isNearest x p k
  if hit below && hit (below + 1) then
    some ⟨roundHalfEven (num * gridDen) (den * gridNum), k⟩
  else if hit below then some ⟨below, k⟩
  else if hit (below + 1) then some ⟨below + 1, k⟩
  else none

/-- The decimal fraction with the fewest digits that is nearer to `x` than to
any other number of the format: the one on the coarsest grid of powers of ten
that has one. -/
def shortest (x : Binary64) : DecimalFraction :=
  if x.significand = 0 then ⟨0, 0⟩
  else ((List.range 660).findSome? fun (i : Nat) =>
    onGrid? x (309 - (i : Int))).getD ⟨0, 0⟩

end Binary64

/-- The fraction without an exponent, with a digit after the point at least. -/
def DecimalFraction.positional (d : DecimalFraction) : String :=
  let digits := decimalDigits d.digits
  if 0 ≤ d.exponent then
    String.ofList (digits ++ List.replicate d.exponent.toNat '0' ++ ['.', '0'])
  else
    let places := (-d.exponent).toNat
    let digits := List.replicate (places + 1 - digits.length) '0' ++ digits
    String.ofList
      (digits.take (digits.length - places) ++ '.' ::
        digits.drop (digits.length - places))

end WebConfigAudit.Text
