import WebConfigAudit.Proofs.ContractMeaning
import WebConfigAudit.Proofs.DecimalDigits
import WebConfigAudit.Proofs.Spelling
/-!
Checks of numbers, said of the numerals that people write.  A numeral passes if
its number has sixty-four bits and the policy allows it; zeros in front of it,
blanks around it and the kind of its quote marks do not count.  What is no
numeral passes under no policy.
-/

namespace WebConfigAudit

/-- A numeral as the value of an attribute: digits with zeros in front of them,
blanks around them, and quote marks around all of it. -/
structure QuotedNumeral where
  mark : Char
  before : List Char
  zeros : Nat
  number : Nat
  after : List Char
  mark_quotes : isQuoteMark mark = true
  before_blank : ∀ c ∈ before, Text.isBlank c = true
  after_blank : ∀ c ∈ after, Text.isBlank c = true

namespace QuotedNumeral

/-- The digits, with the zeros in front of them. -/
def digits (w : QuotedNumeral) : List Char :=
  List.replicate w.zeros '0' ++ Text.decimalDigits w.number

/-- All characters of the value. -/
def chars (w : QuotedNumeral) : List Char :=
  w.mark :: (w.before ++ w.digits ++ w.after) ++ [w.mark]

end QuotedNumeral

namespace Text

variable {cs : List Char}

theorem readDecimal_eq_some_iff_denotes {n : UInt64} :
    readDecimal cs = some n ↔ Denotes cs n.toNat := by
  rw [readDecimal_eq_some_iff, denotes_iff, @eq_comm _ n.toNat]

theorem isDigit_iff_mem {c : Char} :
    isDigit c = true ↔ c ∈ "0123456789".toList := by
  constructor
  · intro hdigit
    obtain ⟨k, hk, rfl⟩ := exists_digitChar hdigit
    have hall : ∀ k < 10, Nat.digitChar k ∈ "0123456789".toList := by decide
    exact hall k hk
  · have hall : "0123456789".toList.all isDigit = true := by decide
    exact List.all_eq_true.mp hall c

theorem readDecimal_eq_none_of_not_mem
    (hother : cs = [] ∨ ∃ c ∈ cs, c ∉ "0123456789".toList) :
    readDecimal cs = none := by
  rw [Option.eq_none_iff_forall_ne_some]
  intro n hread
  rw [readDecimal_eq_some_iff_denotes] at hread
  rcases hother with hnil | ⟨c, hc, hother⟩
  · exact hread.ne_nil hnil
  · exact hother (isDigit_iff_mem.mp (hread.isDigit_of_mem hc))

end Text

section Values

variable {found : AttributeMatch} {policy : IntegerPolicy}

/-- Quote marks and blanks are taken off the value of an attribute before it is
read. -/
theorem AttributeMatch.denotes_valueText {w : QuotedNumeral}
    (hwritten : found.value.text.toList = w.chars) :
    Text.Denotes found.valueText.toList w.number := by
  have hdigits : Text.Denotes w.digits w.number := ⟨w.zeros, rfl⟩
  rw [valueText, stripQuotes, hwritten, QuotedNumeral.chars,
    stripQuoteMarks_quoted w.mark_quotes, Text.trim, String.toList_ofList,
    String.toList_ofList, Text.trimChars_of_blank w.before_blank w.after_blank,
    hdigits.trimChars_eq]
  exact hdigits

theorem Check.evaluate_eq_pass_iff (check : Check)
    (found? : Option AttributeMatch) :
    check.evaluate found? = .pass ↔ check.accepts found? = true := by
  rw [evaluate]
  split <;> simp [*]

theorem Check.evaluate_eq_violation_iff (check : Check)
    (found? : Option AttributeMatch) :
    check.evaluate found? = .violation ↔ check.accepts found? = false := by
  rw [evaluate]
  split <;> simp [*]

/-- A value that denotes a number passes if the number fits in sixty-four bits
and the policy allows it. -/
theorem Check.evaluate_integer_of_denotes {n : Nat}
    (hvalue : Text.Denotes found.valueText.toList n) :
    (Check.integer policy).evaluate (some found) = .pass ↔
      n < 2 ^ 64 ∧ policy.allows (UInt64.ofNat n) = true := by
  rw [evaluate_eq_pass_iff, accepts_integer_some, hvalue.readDecimal_eq,
    Text.wordOfNat?]
  by_cases hsmall : n < 2 ^ 64
  · rw [if_pos (show n < UInt64.size from hsmall), Option.any_some,
      and_iff_right hsmall]
  · rw [if_neg (show ¬ n < UInt64.size from hsmall), Option.any_none]
    exact iff_of_false Bool.false_ne_true fun hallowed => hsmall hallowed.1

/-- The values that pass are numerals, of numbers that the policy allows. -/
theorem Check.evaluate_integer_eq_pass_iff :
    (Check.integer policy).evaluate (some found) = .pass ↔
      ∃ n < 2 ^ 64, Text.Denotes found.valueText.toList n ∧
        policy.allows (UInt64.ofNat n) = true := by
  constructor
  · intro hpass
    have haccepts := (evaluate_eq_pass_iff _ _).mp hpass
    rw [accepts_integer_some, Option.any_eq_true] at haccepts
    obtain ⟨n, hread, hallowed⟩ := haccepts
    refine ⟨n.toNat, n.toNat_lt,
      Text.readDecimal_eq_some_iff_denotes.mp hread, ?_⟩
    rwa [UInt64.ofNat_toNat]
  · rintro ⟨n, hsmall, hvalue, hallowed⟩
    exact (evaluate_integer_of_denotes hvalue).mpr ⟨hsmall, hallowed⟩

theorem Check.evaluate_integer_of_not_numeral
    (hother : found.valueText.toList = [] ∨
      ∃ c ∈ found.valueText.toList, c ∉ "0123456789".toList) :
    (Check.integer policy).evaluate (some found) = .violation := by
  rw [evaluate_eq_violation_iff, accepts_integer_some,
    Text.readDecimal_eq_none_of_not_mem hother, Option.any_none]

theorem Check.evaluate_integer_of_large {n : Nat} (hlarge : 2 ^ 64 ≤ n)
    (hvalue : Text.Denotes found.valueText.toList n) :
    (Check.integer policy).evaluate (some found) = .violation := by
  have hfails : (Check.integer policy).evaluate (some found) ≠ .pass :=
    fun hpass =>
      Nat.not_lt.mpr hlarge ((evaluate_integer_of_denotes hvalue).mp hpass).1
  rw [evaluate_eq_violation_iff, ← Bool.not_eq_true, ← evaluate_eq_pass_iff]
  exact hfails

/-- A bound passes the numerals of the numbers up to it, which are all below the
limit of words. -/
theorem Check.evaluate_maxValue_eq_pass_iff {bound : UInt64} :
    (Check.integer (.maxValue bound)).evaluate (some found) = .pass ↔
      ∃ n ≤ bound.toNat, Text.Denotes found.valueText.toList n := by
  rw [evaluate_integer_eq_pass_iff]
  have hallows {n : Nat} (hsmall : n < 2 ^ 64) :
      (IntegerPolicy.maxValue bound).allows (UInt64.ofNat n) = true ↔
      n ≤ bound.toNat := by
    have hword : (UInt64.ofNat n).toNat = n := UInt64.toNat_ofNat_of_lt hsmall
    rw [IntegerPolicy.allows, decide_eq_true_eq, UInt64.le_iff_toNat_le, hword]
  constructor
  · rintro ⟨n, hsmall, hvalue, hallowed⟩
    exact ⟨n, (hallows hsmall).mp hallowed, hvalue⟩
  · rintro ⟨n, hbound, hvalue⟩
    have hsmall : n < 2 ^ 64 := hbound.trans_lt bound.toNat_lt
    exact ⟨n, hsmall, hvalue, (hallows hsmall).mpr hbound⟩

end Values

/-- Checks of numbers read decimal numerals exactly.  A numeral in quotes, with
blanks around it and zeros in front of it, passes just if its number has
sixty-four bits and the policy allows it, and no other values pass; a value that
is empty without its quotes and blanks, or that has some character besides the
ten digits in it, is a violation of every policy.  A bound passes the numerals
of the numbers up to it, so that a higher bound passes more, and larger numbers
than words hold pass none. -/
theorem integer_checks_read_numerals (policy : IntegerPolicy) :
    (∀ (w : QuotedNumeral) (found : AttributeMatch),
      found.value.text.toList = w.chars →
      ((Check.integer policy).evaluate (some found) = .pass ↔
        w.number < 2 ^ 64 ∧ policy.allows (UInt64.ofNat w.number) = true)) ∧
    (∀ found : AttributeMatch,
      (Check.integer policy).evaluate (some found) = .pass ↔
      ∃ n < 2 ^ 64, Text.Denotes found.valueText.toList n ∧
        policy.allows (UInt64.ofNat n) = true) ∧
    (∀ found : AttributeMatch, (found.valueText.toList = [] ∨
        ∃ c ∈ found.valueText.toList, c ∉ "0123456789".toList) →
      (Check.integer policy).evaluate (some found) = .violation) ∧
    (∀ (found : AttributeMatch) (n : Nat), 2 ^ 64 ≤ n →
      Text.Denotes found.valueText.toList n →
      (Check.integer policy).evaluate (some found) = .violation) ∧
    (∀ (bound : UInt64) (found : AttributeMatch),
      (Check.integer (.maxValue bound)).evaluate (some found) = .pass ↔
        ∃ n ≤ bound.toNat, Text.Denotes found.valueText.toList n) ∧
    ∀ (bound higher : UInt64) (found : AttributeMatch), bound ≤ higher →
      (Check.integer (.maxValue bound)).evaluate (some found) = .pass →
        (Check.integer (.maxValue higher)).evaluate (some found) = .pass := by
  refine ⟨?_, fun found => Check.evaluate_integer_eq_pass_iff,
    fun found => Check.evaluate_integer_of_not_numeral,
    fun found n => Check.evaluate_integer_of_large,
    fun bound found => Check.evaluate_maxValue_eq_pass_iff, ?_⟩
  · intro w found hwritten
    exact Check.evaluate_integer_of_denotes
      (AttributeMatch.denotes_valueText hwritten)
  · intro bound higher found hle hpass
    obtain ⟨n, hn, hvalue⟩ := Check.evaluate_maxValue_eq_pass_iff.mp hpass
    have hhigher : n ≤ higher.toNat := hn.trans (UInt64.le_iff_toNat_le.mp hle)
    exact Check.evaluate_maxValue_eq_pass_iff.mpr ⟨n, hhigher, hvalue⟩

namespace NumeralChecksWitness

/-- Two zeros, a no-break space and a line feed, in single quotes. -/
def numeral (n : Nat) : QuotedNumeral where
  mark := '\''
  before := ['\u00a0']
  zeros := 2
  number := n
  after := ['\n']
  mark_quotes := rfl
  before_blank := List.forall_mem_singleton.mpr (by decide)
  after_blank := List.forall_mem_singleton.mpr (by decide)

/-- An attribute with the characters as its value. -/
def valued (cs : List Char) : AttributeMatch where
  statement :=
    Node.statement "timeout" (String.ofList cs) Span.nowhere Span.nowhere
  name := { kind := .attributeName, text := "timeout", span := Span.nowhere }
  value := { kind := .attributeValue, text := String.ofList cs,
             span := Span.nowhere }

theorem toList_valued (cs : List Char) : (valued cs).value.text.toList = cs :=
  String.toList_ofList

theorem denotes_valued (n : Nat) :
    Text.Denotes (valued (numeral n).chars).valueText.toList n :=
  AttributeMatch.denotes_valueText (toList_valued (numeral n).chars)

/-- The largest word meets its own bound, and the next number meets not even a
prohibition of other numbers; nor does a text with a sign. -/
theorem limit_is_exact :
    (valued (numeral (2 ^ 64 - 1)).chars).value.text.toList =
        (numeral (2 ^ 64 - 1)).chars ∧
      (Check.integer (.maxValue 18446744073709551615)).evaluate
        (some (valued (numeral (2 ^ 64 - 1)).chars)) = .pass ∧
      Text.Denotes (valued (numeral (2 ^ 64)).chars).valueText.toList (2 ^ 64) ∧
      (Check.integer (.forbiddenValue 5)).evaluate
        (some (valued (numeral (2 ^ 64)).chars)) = .violation ∧
      '+' ∈ (valued "'+20'".toList).valueText.toList ∧
      (Check.integer (.forbiddenValue 5)).evaluate
        (some (valued "'+20'".toList)) = .violation ∧
      (15 : UInt64) ≤ 60 ∧
      (Check.integer (.maxValue 15)).evaluate
        (some (valued (numeral 15).chars)) = .pass ∧
      (Check.integer (.maxValue 60)).evaluate
        (some (valued (numeral 15).chars)) = .pass := by
  obtain ⟨hwritten, _, _, _, _, _⟩ :=
    integer_checks_read_numerals (.maxValue 18446744073709551615)
  obtain ⟨_, _, hother, hlarge, hbound, hhigher⟩ :=
    integer_checks_read_numerals (.forbiddenValue 5)
  have hsign : '+' ∈ (valued "'+20'".toList).valueText.toList := by
    decide +kernel
  have hfifteen : (Check.integer (.maxValue 15)).evaluate
      (some (valued (numeral 15).chars)) = .pass :=
    (hbound 15 _).mpr ⟨15, Nat.le_refl _, denotes_valued 15⟩
  refine ⟨toList_valued _, ?_, denotes_valued _,
    hlarge _ _ (Nat.le_refl _) (denotes_valued _), hsign,
    hother _ (Or.inr ⟨'+', hsign, by decide⟩), by decide, hfifteen,
    hhigher 15 60 _ (by decide) hfifteen⟩
  exact (hwritten _ _ (toList_valued _)).mpr ⟨by decide, by decide⟩

end NumeralChecksWitness

end WebConfigAudit
