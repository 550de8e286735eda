import WebConfigAudit.Text.CharClass
import WebConfigAudit.Text.LowercaseTable
/-!
Lower-casing of whole texts.  A capital maps to its small letter, with two
exceptions: a capital I with a dot becomes `i` and a combining dot, and a
capital sigma becomes the final form `ς` at the end of a word and `σ` elsewhere.
-/

namespace WebConfigAudit.Text

def isCased (c : Char) : Bool :=
  inRanges casedRanges c

/-- Whether the character is passed over in the search for a cased neighbour. -/
def isCaseIgnorable (c : Char) : Bool :=
  inRanges caseIgnorableRanges c

def lowerChar (c : Char) : List Char :=
  if c.toNat = 0x130 then ['i', Char.ofNat 0x307]
  else match capitalStretches.find? fun s => s.covers c.toNat with
    | some s => [Char.ofNat (s.lower c.toNat)]
    | none => [c]

/-- Whether a cased character comes next, ignorable ones passed over. -/
def casedNext (cs : List Char) : Bool :=
  match cs.dropWhile isCaseIgnorable with
  | [] => false
  | c :: _ => isCased c

/-- A capital sigma between `before` (read backwards) and `after` ends a word if
a cased character comes before it and none after it. -/
def lowerSigma (before after : List Char) : Char :=
  if casedNext before && !casedNext after then 'ς' else 'σ'

/-- Lower-case the characters, given those already passed in backward order. -/
def lowerFrom (before : List Char) : List Char → List Char
  | [] => []
  | c :: rest =>
      (if c = 'Σ' then [lowerSigma before rest] else lowerChar c) ++
        lowerFrom (c :: before) rest

def lowerChars (cs : List Char) : List Char :=
  lowerFrom [] cs

def lowercase (s : String) : String :=
  String.ofList (lowerChars s.toList)

end WebConfigAudit.Text
