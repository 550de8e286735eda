import Mathlib.Data.List.DropRight
import WebConfigAudit.Contract.Basic
import WebConfigAudit.Proofs.DecidingStatement
import WebConfigAudit.Proofs.DecimalDigits
/-!
How the values of documents and contracts are read, in words of their own: one
quote mark is taken off each end, then the blanks, and texts are compared in
lower case.  Rules read values in the same way.
-/

namespace WebConfigAudit

namespace Text

/-- The characters with the white-space property, one by one. -/
def whiteSpace : List Char :=
  ['\t', '\n', '\x0b', '\x0c', '\r', ' ', '\u0085', '\u00a0', '\u1680',
   '\u2000', '\u2001', '\u2002', '\u2003', '\u2004', '\u2005', '\u2006',
   '\u2007', '\u2008', '\u2009', '\u200a', '\u2028', '\u2029', '\u202f',
   '\u205f', '\u3000']

def quoteMarks : List Char := ['"', '\'']

/-- What stands between the blanks at both ends. -/
def withoutBlanks (cs : List Char) : List Char :=
  (cs.dropWhile (· ∈ whiteSpace)).rdropWhile (· ∈ whiteSpace)

/-- What stands between the quote marks: one is taken off each end that has one.
The two need not be alike. -/
def withoutQuotes (cs : List Char) : List Char :=
  let opened := if cs.head?.any (· ∈ quoteMarks) then cs.tail else cs
  if opened.getLast?.any (· ∈ quoteMarks) then opened.dropLast else opened

/-- The number below `2 ^ 64` that some digits, and nothing else, stand for. -/
def numeral? (cs : List Char) : Option Nat :=
  if cs ≠ [] ∧ cs.all Char.isDigit = true ∧
      Nat.ofDigitChars 10 cs 0 < UInt64.size then
    some (Nat.ofDigitChars 10 cs 0)
  else none

theorem isBlank_iff_mem {c : Char} : isBlank c = true ↔ c ∈ whiteSpace := by
  have hcodes : whiteSpace.map Char.toNat =
      [0x9, 0xa, 0xb, 0xc, 0xd, 0x20, 0x85, 0xa0, 0x1680, 0x2000, 0x2001,
       0x2002, 0x2003, 0x2004, 0x2005, 0x2006, 0x2007, 0x2008, 0x2009, 0x200a,
       0x2028, 0x2029, 0x202f, 0x205f, 0x3000] := by
    decide
  have hinjective : Function.Injective Char.toNat := fun _ _ =>
    Char.toNat_inj.mp
  rw [← List.mem_map_of_injective hinjective, hcodes]
  simp only [isBlank, inRanges, blankRanges, List.any_cons, List.any_nil,
    Bool.or_eq_true, Bool.and_eq_true, decide_eq_true_eq, List.mem_cons,
    List.not_mem_nil, Bool.or_false, or_false]
  omega

theorem withoutBlanks_eq (cs : List Char) :
    withoutBlanks cs = trimChars cs := by
  have hblank : (fun c => decide (c ∈ whiteSpace)) = isBlank := by
    funext c
    rw [Bool.eq_iff_iff, decide_eq_true_eq, isBlank_iff_mem]
  rw [withoutBlanks, hblank]
  rfl

theorem isQuoteMark_iff_mem {c : Char} :
    isQuoteMark c = true ↔ c ∈ quoteMarks := by
  simp [isQuoteMark, quoteMarks]

theorem withoutOpening_eq (cs : List Char) :
    (if cs.head?.any (· ∈ quoteMarks) then cs.tail else cs) =
      dropQuoteMark cs := by
  cases cs with
  | nil => rfl
  | cons c rest => simp [dropQuoteMark, isQuoteMark_iff_mem]

theorem withoutClosing_eq (cs : List Char) :
    (if cs.getLast?.any (· ∈ quoteMarks) then cs.dropLast else cs) =
      (dropQuoteMark cs.reverse).reverse := by
  rw [← withoutOpening_eq, List.head?_reverse, List.tail_reverse]
  split
  · rw [List.reverse_reverse]
  · rw [List.reverse_reverse]

theorem withoutQuotes_eq (cs : List Char) :
    withoutQuotes cs = stripQuoteMarks cs := by
  rw [withoutQuotes, withoutOpening_eq, withoutClosing_eq, stripQuoteMarks]

theorem isDigit_eq : Char.isDigit = isDigit := by
  funext c
  simp [Char.isDigit, isDigit, Char.le_def]

theorem numeral?_eq (cs : List Char) :
    numeral? cs = (readDecimal cs).map UInt64.toNat := by
  have hvalue : Nat.ofDigitChars 10 cs 0 = digitsValue cs := rfl
  simp only [numeral?, hvalue, readDecimal, wordOfNat?, isDigit_eq, ← and_assoc]
  by_cases hdigits : cs ≠ [] ∧ cs.all isDigit = true
  · by_cases hsmall : digitsValue cs < UInt64.size
    · rw [if_pos ⟨hdigits, hsmall⟩, if_pos hdigits, if_pos hsmall,
        Option.map_some, UInt64.toNat_ofNat_of_lt' hsmall]
    · rw [if_neg (fun h => hsmall h.2), if_pos hdigits, if_neg hsmall,
        Option.map_none]
  · rw [if_neg (fun h => hdigits h.1), if_neg hdigits, Option.map_none]

theorem lowerChars_decimalDigits (n : Nat) :
    lowerChars (decimalDigits n) = decimalDigits n := by
  apply lowerFrom_of_isFixedPoint
  intro c hc
  obtain ⟨k, hk, rfl⟩ := exists_digitChar (isDigit_of_mem_decimalDigits hc)
  have hall : ∀ k < 10, isFixedPoint (Nat.digitChar k).toNat = true := by
    decide +kernel
  exact hall k hk

end Text

/-- What the value token of an attribute says. -/
def AttributeMatch.said (found : AttributeMatch) : List Char :=
  Text.withoutBlanks (Text.withoutQuotes found.value.text.toList)

theorem AttributeMatch.toList_valueText (found : AttributeMatch) :
    found.valueText.toList = found.said := by
  rw [valueText, Text.trim, stripQuotes, String.toList_ofList,
    String.toList_ofList, said, Text.withoutBlanks_eq, Text.withoutQuotes_eq]

/-- The text that the value is compared as. -/
def AttributeMatch.compared (found : AttributeMatch) : String :=
  String.ofList (Text.lowerChars found.said)

theorem AttributeMatch.normalizedValue_eq_compared (found : AttributeMatch) :
    found.normalizedValue = found.compared := by
  rw [normalizedValue, Text.lowercase, toList_valueText, compared]

namespace ConfiguredValue

/-- The text that a configured value is compared as; a number is its numeral. -/
def compared : ConfiguredValue → String
  | .integer n => String.ofList (Nat.toDigits 10 n.toNat)
  | .text s => String.ofList (Text.lowerChars (Text.withoutBlanks s.toList))

/-- The number that a configured value is.  A numeral may have a plus sign
before it and blanks around it. -/
def number? : ConfiguredValue → Option Nat
  | .integer n => some n.toNat
  | .text s =>
      match Text.withoutBlanks s.toList with
      | '+' :: digits => Text.numeral? digits
      | digits => Text.numeral? digits

theorem normalize_asText (value : ConfiguredValue) :
    normalize value.asText = value.compared := by
  rw [normalize, Text.lowercase, Text.trim, String.toList_ofList]
  cases value with
  | integer n =>
      have hdigits := Text.denotes_decimalDigits n.toNat
      rw [asText, Text.decimal, String.toList_ofList, hdigits.trimChars_eq,
        Text.lowerChars_decimalDigits]
      rfl
  | text s => rw [asText, compared, Text.withoutBlanks_eq]

theorem number?_eq (value : ConfiguredValue) :
    value.number? = value.asInteger?.map UInt64.toNat := by
  cases value with
  | integer n => rfl
  | text s =>
      rw [number?, asInteger?, Text.withoutBlanks_eq]
      generalize Text.trimChars s.toList = trimmed
      fun_cases Text.readSignedDecimal trimmed with
      | case1 digits => exact Text.numeral?_eq digits
      | case2 =>
          split
          · next digits hother => exact absurd rfl (hother digits)
          · exact Text.numeral?_eq trimmed

end ConfiguredValue

/-- The attribute that a contract speaks of, as the first statement that bears
on the name has it.  Blanks around the name do not count. -/
def Node.namedAttribute? (node : Node) (name : String) :
    Except NodeError (Option AttributeMatch) :=
  let bare := String.ofList (Text.withoutBlanks name.toList)
  match node.children.find? fun child => child.BearsOn bare with
  | none => .ok none
  | some statement => statement.tokens.map some

theorem Node.findAttribute?_trim (node : Node) (name : String) :
    node.findAttribute? (Text.trim name) = node.namedAttribute? name := by
  have hbears : (fun child : Node => decide (child.BearsOn (Text.trim name))) =
      Node.settles (Text.lowerChars (Text.trim name).toList) := by
    funext child
    rw [Bool.eq_iff_iff, decide_eq_true_eq, Node.settles_eq_true_iff]
  have hbare : String.ofList (Text.withoutBlanks name.toList) =
      Text.trim name := by
    rw [Text.withoutBlanks_eq, Text.trim]
  rw [Node.findAttribute?_eq, namedAttribute?, hbare, hbears]
  rfl

end WebConfigAudit
