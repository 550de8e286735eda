import Mathlib.Data.List.Induction
import Mathlib.Data.List.TakeWhile
import WebConfigAudit.Text.CharClass
import WebConfigAudit.Text.Decimal
/-!
The digits of a number: they are decimal digits, they do not start with a
needless zero, and they stand for the number.  Every run of digits is the digits
of its number behind some zeros.
-/

namespace WebConfigAudit.Text

variable {n : Nat} {c : Char} {cs : List Char}

theorem isDigit_of_mem_decimalDigits (hc : c ∈ decimalDigits n) :
    isDigit c = true := by
  have hdigit := Nat.isDigit_of_mem_toDigits (by decide) (by decide) hc
  simp only [Char.isDigit, Bool.and_eq_true, decide_eq_true_eq] at hdigit
  simp only [isDigit, Bool.and_eq_true, decide_eq_true_eq, Char.le_def]
  exact hdigit

theorem not_mem_decimal (hc : isDigit c = false) (n : Nat) :
    c ∉ (decimal n).toList := by
  rw [decimal, String.toList_ofList]
  intro hdigit
  rw [isDigit_of_mem_decimalDigits hdigit] at hc
  contradiction

theorem decimalDigits_ne_nil (n : Nat) : decimalDigits n ≠ [] :=
  Nat.toDigits_ne_nil

@[simp] theorem digitsValue_decimalDigits (n : Nat) :
    digitsValue (decimalDigits n) = n :=
  Nat.ofDigitChars_ten_toDigits

/-- Zero alone is written with a zero at the front. -/
theorem head_decimalDigits_ne_zero (hn : 0 < n) :
    (decimalDigits n).head? ≠ some '0' := by
  induction n using Nat.strongRecOn with
  | ind n ih =>
      rw [decimalDigits]
      by_cases hone : n < 10
      · rw [Nat.toDigits_of_lt_base hone]
        simpa using Nat.ne_of_gt hn
      · have hfront := ih (n / 10) (by omega) (by omega)
        rw [Nat.toDigits_of_base_le (by decide) (by omega), List.head?_append]
        obtain ⟨digit, rest, hdigits⟩ :=
          List.exists_cons_of_ne_nil (decimalDigits_ne_nil (n / 10))
        rw [decimalDigits] at hdigits
        rw [decimalDigits, hdigits] at hfront
        rw [hdigits]
        simpa using hfront

theorem digitsValue_concat (cs : List Char) (c : Char) :
    digitsValue (cs ++ [c]) = 10 * digitsValue cs + digitValue c := by
  rw [digitsValue, List.foldl_append]
  rfl

theorem digitsValue_zeros_append (zeros : Nat) (cs : List Char) :
    digitsValue (List.replicate zeros '0' ++ cs) = digitsValue cs := by
  induction zeros with
  | zero => rfl
  | succ zeros ih => exact ih

theorem exists_digitChar (hdigit : isDigit c = true) :
    ∃ k < 10, c = Nat.digitChar k := by
  simp only [isDigit, Bool.and_eq_true, decide_eq_true_eq, Char.le_def,
    UInt32.le_iff_toNat_le] at hdigit
  have hlow : 48 ≤ c.toNat := hdigit.1
  have hhigh : c.toNat ≤ 57 := hdigit.2
  have hall : ∀ k < 10, Char.ofNat (48 + k) = Nat.digitChar k := by decide
  refine ⟨c.toNat - 48, by omega, ?_⟩
  rw [← hall _ (by omega), Nat.add_sub_cancel' hlow, Char.ofNat_toNat]

theorem digitValue_digitChar {k : Nat} (hk : k < 10) :
    digitValue (Nat.digitChar k) = k := by
  have hall : ∀ k < 10, digitValue (Nat.digitChar k) = k := by decide
  exact hall k hk

/-- A digit after those of a positive number. -/
theorem decimalDigits_concat {m k : Nat} (hm : 0 < m) (hk : k < 10) :
    decimalDigits (10 * m + k) = decimalDigits m ++ [Nat.digitChar k] := by
  rw [decimalDigits, ← Nat.toDigits_append_toDigits (by decide) hm hk,
    Nat.toDigits_of_lt_base hk]
  rfl

/-- The digits of a number, with any number of zeros in front of them. -/
def Denotes (cs : List Char) (n : Nat) : Prop :=
  ∃ zeros, cs = List.replicate zeros '0' ++ decimalDigits n

/-- Any run of digits denotes the number that it stands for. -/
theorem denotes_digitsValue (hne : cs ≠ [])
    (hdigits : ∀ c ∈ cs, isDigit c = true) : Denotes cs (digitsValue cs) := by
  induction cs using List.reverseRecOn with
  | nil => contradiction
  | append_singleton front c ih =>
      obtain ⟨k, hk, rfl⟩ := exists_digitChar (hdigits c (by simp))
      have hfront : front ≠ [] → Denotes front (digitsValue front) := fun hne =>
        ih hne fun d hd => hdigits d (List.mem_append_left _ hd)
      rw [digitsValue_concat, digitValue_digitChar hk]
      by_cases hvalue : digitsValue front = 0
      · -- nothing but zeros in front of the last digit
        rw [hvalue, Nat.mul_zero, Nat.zero_add, Denotes, decimalDigits,
          Nat.toDigits_of_lt_base hk]
        by_cases hnil : front = []
        · exact ⟨0, by rw [hnil]; rfl⟩
        · obtain ⟨zeros, hzeros⟩ := hfront hnil
          rw [hvalue] at hzeros
          refine ⟨zeros + 1, ?_⟩
          rw [hzeros, List.replicate_succ']
          rfl
      · have hnil : front ≠ [] := by
          rintro rfl
          exact hvalue rfl
        obtain ⟨zeros, hzeros⟩ := hfront hnil
        refine ⟨zeros, ?_⟩
        rw [decimalDigits_concat (Nat.pos_of_ne_zero hvalue) hk,
          ← List.append_assoc, ← hzeros]

theorem Denotes.digitsValue_eq (hcs : Denotes cs n) : digitsValue cs = n := by
  obtain ⟨zeros, rfl⟩ := hcs
  rw [digitsValue_zeros_append, digitsValue_decimalDigits]

theorem Denotes.ne_nil (hcs : Denotes cs n) : cs ≠ [] := by
  obtain ⟨zeros, rfl⟩ := hcs
  simp [decimalDigits_ne_nil]

theorem Denotes.isDigit_of_mem (hcs : Denotes cs n) (hc : c ∈ cs) :
    isDigit c = true := by
  obtain ⟨zeros, rfl⟩ := hcs
  rcases List.mem_append.mp hc with hzero | hdigit
  · rw [List.eq_of_mem_replicate hzero]
    decide
  · exact isDigit_of_mem_decimalDigits hdigit

theorem denotes_iff :
    Denotes cs n ↔ cs ≠ [] ∧ (∀ c ∈ cs, isDigit c = true) ∧
      digitsValue cs = n := by
  constructor
  · intro hcs
    exact ⟨hcs.ne_nil, fun c hc => hcs.isDigit_of_mem hc, hcs.digitsValue_eq⟩
  · rintro ⟨hne, hdigits, rfl⟩
    exact denotes_digitsValue hne hdigits

theorem readDecimal_eq_some_iff {word : UInt64} :
    readDecimal cs = some word ↔
      cs ≠ [] ∧ (∀ c ∈ cs, isDigit c = true) ∧ word.toNat = digitsValue cs := by
  rw [← List.all_eq_true, readDecimal, wordOfNat?]
  constructor
  · intro hread
    split at hread
    · next hdigits =>
        split at hread
        · next hsmall =>
            cases hread
            exact ⟨hdigits.1, hdigits.2, UInt64.toNat_ofNat_of_lt hsmall⟩
        · contradiction
    · contradiction
  · rintro ⟨hne, hdigits, hvalue⟩
    rw [if_pos ⟨hne, hdigits⟩, ← hvalue, if_pos word.toNat_lt,
      UInt64.ofNat_toNat]

theorem denotes_decimalDigits (n : Nat) : Denotes (decimalDigits n) n :=
  ⟨0, rfl⟩

/-- A number of sixty-four bits is read off its numeral, a larger one is not. -/
theorem Denotes.readDecimal_eq (hcs : Denotes cs n) :
    readDecimal cs = wordOfNat? n := by
  rw [readDecimal,
    if_pos ⟨hcs.ne_nil, List.all_eq_true.mpr fun c hc => hcs.isDigit_of_mem hc⟩,
    hcs.digitsValue_eq]

/-- A numeral has no blanks to be trimmed of. -/
theorem Denotes.trimChars_eq (hcs : Denotes cs n) : trimChars cs = cs := by
  have hkeep {ds : List Char} (hds : ∀ c ∈ ds, isDigit c = true) :
      ds.dropWhile isBlank = ds := by
    rw [List.dropWhile_eq_self_iff]
    intro hlength
    obtain ⟨k, hk, hdigit⟩ :=
      exists_digitChar (hds _ (List.getElem_mem hlength))
    have hall : ∀ k < 10, ¬ isBlank (Nat.digitChar k) = true := by decide
    rw [hdigit]
    exact hall k hk
  have hdigits : ∀ c ∈ cs, isDigit c = true := fun c hc => hcs.isDigit_of_mem hc
  rw [trimChars, trimStart, hkeep hdigits, trimEnd,
    hkeep (by simpa using hdigits), List.reverse_reverse]

end WebConfigAudit.Text
