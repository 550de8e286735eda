import WebConfigAudit.Text.CharClass
import WebConfigAudit.Text.QuotedTable
/-!
Quoted text, as messages show a value that a user wrote: between double quotes,
with escapes for what would not be seen as itself.
-/

namespace WebConfigAudit.Text

/-- A number in base sixteen, in small digits and without leading zeros. -/
def hexDigits (n : Nat) : List Char :=
  Nat.toDigits 16 n

/-- Whether the character is written by its code point. -/
def isInvisible (c : Char) : Bool :=
  inRanges invisibleRanges c || inRanges extendingRanges c

/-- One character of a quoted text.  Paths write the apostrophe with a
backslash, other texts do not, so it is a parameter. -/
def escapeChar (apostrophe : Bool) (c : Char) : List Char :=
  if c = '\x00' then ['\\', '0']
  else if c = '\t' then ['\\', 't']
  else if c = '\r' then ['\\', 'r']
  else if c = '\n' then ['\\', 'n']
  else if c = '\\' then ['\\', '\\']
  else if c = '"' then ['\\', '"']
  else if c = '\'' then (if apostrophe then ['\\', '\''] else ['\''])
  else if isInvisible c then
    '\\' :: 'u' :: '\x7b' :: hexDigits c.toNat ++ ['\x7d']
  else [c]

def quote (s : String) : String :=
  String.ofList ('"' :: s.toList.flatMap (escapeChar false) ++ ['"'])

def quotePath (s : String) : String :=
  String.ofList ('"' :: s.toList.flatMap (escapeChar true) ++ ['"'])

end WebConfigAudit.Text
