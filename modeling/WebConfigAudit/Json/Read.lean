import WebConfigAudit.Json.Value
import WebConfigAudit.Text.Decimal
/-!
Reading JSON texts.  A reader takes the characters to read and gives back what
it read with the characters that follow.
-/

namespace WebConfigAudit.Json

/-- The blanks between the parts of a text. -/
def isGap (c : Char) : Bool :=
  c == ' ' || c == '\n' || c == '\t' || c == '\r'

def skipGap (cs : List Char) : List Char :=
  cs.dropWhile isGap

def hexValue? (c : Char) : Option Nat :=
  if Text.isDigit c then some (c.toNat - '0'.toNat)
  else if 'a' ≤ c ∧ c ≤ 'f' then some (c.toNat - 'a'.toNat + 10)
  else if 'A' ≤ c ∧ c ≤ 'F' then some (c.toNat - 'A'.toNat + 10)
  else none

def readHex4 : List Char → Option (Nat × List Char)
  | a :: b :: c :: d :: rest => do
      let value ← [a, b, c, d].foldlM
        (fun n digit => (hexValue? digit).map (16 * n + ·)) 0
      return (value, rest)
  | _ => none

/-- The character of a `\u` escape, after its `u`.  Two halves of a pair make
one character, and half a pair makes none. -/
def readUnicode (cs : List Char) : Option (Char × List Char) := do
  let (high, rest) ← readHex4 cs
  if high < 0xd800 ∨ 0xdfff < high then
    return (Char.ofNat high, rest)
  else if high < 0xdc00 then
    match rest with
    | '\\' :: 'u' :: rest =>
        let (low, rest) ← readHex4 rest
        if 0xdc00 ≤ low ∧ low ≤ 0xdfff then
          return (Char.ofNat
            (0x10000 + (high - 0xd800) * 0x400 + (low - 0xdc00)), rest)
        else none
    | _ => none
  else none

/-- The character of an escape, after its backslash. -/
def readEscape : List Char → Option (Char × List Char)
  | '"' :: rest => some ('"', rest)
  | '\\' :: rest => some ('\\', rest)
  | '/' :: rest => some ('/', rest)
  | 'b' :: rest => some ('\x08', rest)
  | 'f' :: rest => some ('\x0c', rest)
  | 'n' :: rest => some ('\n', rest)
  | 'r' :: rest => some ('\r', rest)
  | 't' :: rest => some ('\t', rest)
  | 'u' :: rest => readUnicode rest
  | _ => none

/-- The characters of a string up to its closing quote. -/
def readStringBody : Nat → List Char → Option (List Char × List Char)
  | 0, _ => none
  | _ + 1, [] => none
  | fuel + 1, c :: rest =>
      if c = '"' then some ([], rest)
      else if c = '\\' then do
        let (x, rest) ← readEscape rest
        let (s, rest) ← readStringBody fuel rest
        return (x :: s, rest)
      else if c.toNat < 0x20 then none
      else do
        let (s, rest) ← readStringBody fuel rest
        return (c :: s, rest)

/-- A string, after its opening quote. -/
def readString (fuel : Nat) (cs : List Char) : Option (String × List Char) := do
  let (s, rest) ← readStringBody fuel cs
  return (String.ofList s, rest)

/-- The characters that numerals are made of. -/
def isNumeralChar (c : Char) : Bool :=
  Text.isDigit c || c == '-' || c == '+' || c == '.' || c == 'e' || c == 'E'

/-- A zero, or digits that start with another. -/
def isWholePart : List Char → Bool
  | [] => false
  | ['0'] => true
  | c :: rest => c != '0' && (c :: rest).all Text.isDigit

def isDigits (cs : List Char) : Bool :=
  !cs.isEmpty && cs.all Text.isDigit

def isExponent : List Char → Bool
  | [] => true
  | e :: '+' :: digits => (e == 'e' || e == 'E') && isDigits digits
  | e :: '-' :: digits => (e == 'e' || e == 'E') && isDigits digits
  | e :: digits => (e == 'e' || e == 'E') && isDigits digits

/-- A fraction and an exponent, either of which may be missing. -/
def isNumeralTail : List Char → Bool
  | '.' :: rest =>
      isDigits (rest.takeWhile Text.isDigit) &&
        isExponent (rest.dropWhile Text.isDigit)
  | rest => isExponent rest

/-- Whether the characters are a numeral without a sign. -/
def isUnsignedNumeral (cs : List Char) : Bool :=
  isWholePart (cs.takeWhile Text.isDigit) &&
    isNumeralTail (cs.dropWhile Text.isDigit)

def ofNumeral? (cs : List Char) : Option Json :=
  if isWholePart cs then some (.natural (Text.digitsValue cs))
  else
    let unsigned := match cs with
      | '-' :: rest => rest
      | rest => rest
    if isUnsignedNumeral unsigned then
      some (.numeral (String.ofList cs)) else none

/-- A word such as `null`, and the value it stands for. -/
def readWord (word : String) (value : Json) (cs : List Char) :
    Option (Json × List Char) :=
  if word.toList.isPrefixOf cs then some (value, cs.drop word.length) else none

mutual

/-- A value, blanks before it passed over; `fuel` bounds the number of steps. -/
def readValue : Nat → List Char → Option (Json × List Char)
  | 0, _ => none
  | fuel + 1, cs =>
      match skipGap cs with
      | [] => none
      | c :: rest =>
          if c = '"' then do
            let (s, rest) ← readString fuel rest
            return (.string s, rest)
          else if c = '[' then
            match skipGap rest with
            | ']' :: rest => some (.array [], rest)
            | rest => do
                let (items, rest) ← readItems fuel rest
                return (.array items, rest)
          else if c = '\x7b' then
            match skipGap rest with
            | '\x7d' :: rest => some (.object [], rest)
            | rest => do
                let (members, rest) ← readMembers fuel rest
                return (.object members, rest)
          else if c = 'n' then readWord "null" .null (c :: rest)
          else if c = 't' then readWord "true" (.bool true) (c :: rest)
          else if c = 'f' then readWord "false" (.bool false) (c :: rest)
          else do
            let value ← ofNumeral? ((c :: rest).takeWhile isNumeralChar)
            return (value, (c :: rest).dropWhile isNumeralChar)

/-- The items of an array, at least one, with the closing bracket. -/
def readItems : Nat → List Char → Option (List Json × List Char)
  | 0, _ => none
  | fuel + 1, cs => do
      let (item, rest) ← readValue fuel cs
      match skipGap rest with
      | ',' :: rest =>
          let (items, rest) ← readItems fuel rest
          return (item :: items, rest)
      | ']' :: rest => return ([item], rest)
      | _ => none

/-- The members of an object, at least one, with the closing brace. -/
def readMembers : Nat → List Char → Option (List (String × Json) × List Char)
  | 0, _ => none
  | fuel + 1, cs =>
      match skipGap cs with
      | '"' :: rest => do
          let (key, rest) ← readString fuel rest
          match skipGap rest with
          | ':' :: rest =>
              let (value, rest) ← readValue fuel rest
              match skipGap rest with
              | ',' :: rest =>
                  let (members, rest) ← readMembers fuel rest
                  return ((key, value) :: members, rest)
              | '\x7d' :: rest => return ([(key, value)], rest)
              | _ => none
          | _ => none
      | _ => none

end

/-- The value of a whole text; only blanks may follow it.  Every bracket has
another that closes it, so the length of the text bounds the number of steps. -/
def read (text : String) : Option Json := do
  let cs := text.toList
  let (value, rest) ← readValue (cs.length + 1) cs
  if (skipGap rest).isEmpty then some value else none

end WebConfigAudit.Json
