import WebConfigAudit.Json.Value
import WebConfigAudit.Text.Decimal
/-!
Writing JSON values, on one line or with one member or item a line.
-/

namespace WebConfigAudit.Json

def hexDigit (n : Nat) : Char :=
  Nat.digitChar n

/-- One character of a string.  Quote, backslash and control characters are
escaped, all others stand for themselves. -/
def escape (c : Char) : List Char :=
  if c = '"' then ['\\', '"']
  else if c = '\\' then ['\\', '\\']
  else if c = '\x08' then ['\\', 'b']
  else if c = '\t' then ['\\', 't']
  else if c = '\n' then ['\\', 'n']
  else if c = '\x0c' then ['\\', 'f']
  else if c = '\r' then ['\\', 'r']
  else if c.toNat < 0x20 then
    ['\\', 'u', '0', '0', hexDigit (c.toNat / 16), hexDigit (c.toNat % 16)]
  else [c]

def printString (s : String) : List Char :=
  '"' :: s.toList.flatMap escape ++ ['"']

mutual

/-- A value on one line, without blanks. -/
def compactChars : Json → List Char
  | .null => "null".toList
  | .bool true => "true".toList
  | .bool false => "false".toList
  | .natural n => Text.decimalDigits n
  | .numeral text => text.toList
  | .string text => printString text
  | .array items => '[' :: compactItems items ++ [']']
  | .object members => '\x7b' :: compactMembers members ++ ['\x7d']

def compactItems : List Json → List Char
  | [] => []
  | [item] => compactChars item
  | item :: items => compactChars item ++ ',' :: compactItems items

def compactMembers : List (String × Json) → List Char
  | [] => []
  | [(key, value)] => printString key ++ ':' :: compactChars value
  | (key, value) :: members =>
      printString key ++ ':' :: compactChars value ++ ',' ::
        compactMembers members

end

def compact (json : Json) : String :=
  String.ofList (compactChars json)

/-- A new line, indented by two blanks a level. -/
def newLine (depth : Nat) : List Char :=
  '\n' :: List.replicate (2 * depth) ' '

mutual

/-- A value over several lines, `depth` levels deep.  Empty arrays and objects
stay on one line. -/
def prettyChars (depth : Nat) : Json → List Char
  | .null => "null".toList
  | .bool true => "true".toList
  | .bool false => "false".toList
  | .natural n => Text.decimalDigits n
  | .numeral text => text.toList
  | .string text => printString text
  | .array [] => ['[', ']']
  | .array (item :: items) =>
      '[' :: newLine (depth + 1) ++ prettyChars (depth + 1) item ++
        prettyItems (depth + 1) items ++ newLine depth ++ [']']
  | .object [] => ['\x7b', '\x7d']
  | .object ((key, value) :: members) =>
      '\x7b' :: newLine (depth + 1) ++ printString key ++ [':', ' '] ++
        prettyChars (depth + 1) value ++ prettyMembers (depth + 1) members ++
        newLine depth ++ ['\x7d']

/-- The items after the first, each after a comma and on a line of its own. -/
def prettyItems (depth : Nat) : List Json → List Char
  | [] => []
  | item :: items =>
      ',' :: newLine depth ++ prettyChars depth item ++ prettyItems depth items

/-- The members after the first, each after a comma and on a line of its own. -/
def prettyMembers (depth : Nat) : List (String × Json) → List Char
  | [] => []
  | (key, value) :: members =>
      ',' :: newLine depth ++ printString key ++ [':', ' '] ++
        prettyChars depth value ++ prettyMembers depth members

end

/-- The text of a value over several lines. -/
def pretty (json : Json) : String :=
  String.ofList (prettyChars 0 json)

end WebConfigAudit.Json
