import Mathlib.Data.List.TakeWhile
import WebConfigAudit.Proofs.Lowercase
import WebConfigAudit.Text.CharClass
import WebConfigAudit.Text.Decimal
/-!
Texts that differ in the case of basic Latin letters.  Trimming cuts them at the
same places, they have the same lower-case form, and as numerals they read
alike.
-/

namespace WebConfigAudit.Text

/-- Whether two texts, as characters, differ at most in the case of the letters
`a` to `z`. -/
def SameLetters (cs ds : List Char) : Prop :=
  cs.map Char.toLower = ds.map Char.toLower

instance (cs ds : List Char) : Decidable (SameLetters cs ds) :=
  inferInstanceAs (Decidable (cs.map Char.toLower = ds.map Char.toLower))

/-- A character is left as it is, or is one of the capitals. -/
theorem toLower_eq_self_or_capital (c : Char) :
    c.toLower = c ∨ ∃ k < 26, c = Char.ofNat (65 + k) := by
  by_cases hcapital : c.val ≥ 'A'.val ∧ c.val ≤ 'Z'.val
  · right
    obtain ⟨hfrom, hto⟩ := hcapital
    rw [ge_iff_le, UInt32.le_iff_toNat_le] at hfrom
    rw [UInt32.le_iff_toNat_le] at hto
    have hlow : 65 ≤ c.toNat := hfrom
    have hhigh : c.toNat ≤ 90 := hto
    refine ⟨c.toNat - 65, by omega, ?_⟩
    rw [Nat.add_sub_cancel' hlow, Char.ofNat_toNat]
  · exact Or.inl (dif_neg hcapital)

/-- What is the same for a capital and its small letter is the same for every
character and its small letter. -/
theorem eq_of_toLower_eq {α : Type} {f : Char → α}
    (hcapitals : ∀ k < 26, f (Char.ofNat (65 + k)).toLower =
      f (Char.ofNat (65 + k)))
    {c d : Char} (hletter : c.toLower = d.toLower) : f c = f d := by
  have hsmall (x : Char) : f x.toLower = f x := by
    rcases toLower_eq_self_or_capital x with hself | ⟨k, hk, rfl⟩
    · rw [hself]
    · exact hcapitals k hk
  rw [← hsmall c, hletter, hsmall d]

theorem toNat_capital : ∀ k < 26, (Char.ofNat (65 + k)).toNat = 65 + k ∧
    (Char.ofNat (65 + k)).toLower.toNat = 97 + k := by
  decide +kernel

/-- The check of the table behind the next lemma. -/
theorem caseIgnorableRanges_avoid_letters : ∀ range ∈ caseIgnorableRanges,
    range.2 < 65 ∨ 90 < range.1 ∧ range.2 < 97 ∨ 122 < range.1 := by
  decide +kernel

theorem isCaseIgnorable_letter {c : Char} {k : Nat} (hk : k < 26)
    (hc : c.toNat = 65 + k ∨ c.toNat = 97 + k) : isCaseIgnorable c = false := by
  rw [isCaseIgnorable, inRanges, List.any_eq_false]
  intro range hrange
  have havoids := caseIgnorableRanges_avoid_letters range hrange
  rw [Bool.and_eq_true, decide_eq_true_eq, decide_eq_true_eq]
  omega

theorem lowerChar_capital : ∀ k < 26,
    lowerChar (Char.ofNat (65 + k)) = [(Char.ofNat (65 + k)).toLower] := by
  decide +kernel

section Characters

variable {c d : Char} (hletter : c.toLower = d.toLower)

include hletter

theorem isBlank_eq_of_toLower_eq : isBlank c = isBlank d :=
  eq_of_toLower_eq (by decide +kernel) hletter

theorem isCased_eq_of_toLower_eq : isCased c = isCased d :=
  eq_of_toLower_eq (by decide +kernel) hletter

theorem isCaseIgnorable_eq_of_toLower_eq :
    isCaseIgnorable c = isCaseIgnorable d := by
  refine eq_of_toLower_eq (fun k hk => ?_) hletter
  rw [isCaseIgnorable_letter hk (Or.inl (toNat_capital k hk).1),
    isCaseIgnorable_letter hk (Or.inr (toNat_capital k hk).2)]

theorem lowerChar_eq_of_toLower_eq : lowerChar c = lowerChar d := by
  refine eq_of_toLower_eq (fun k hk => ?_) hletter
  -- the small letter comes out of the tables, so it is not changed again
  have hmem : (Char.ofNat (65 + k)).toLower ∈
      lowerChar (Char.ofNat (65 + k)) := by
    rw [lowerChar_capital k hk]
    exact List.mem_singleton_self _
  rw [lowerChar_of_isFixedPoint (isFixedPoint_of_mem_lowerChar hmem),
    lowerChar_capital k hk]

theorem isSigma_eq_of_toLower_eq : (c == 'Σ') = (d == 'Σ') :=
  eq_of_toLower_eq (f := fun x => x == 'Σ') (by decide +kernel) hletter

theorem isDigit_eq_of_toLower_eq : isDigit c = isDigit d :=
  eq_of_toLower_eq (by decide +kernel) hletter

end Characters

/-- A digit has no other case. -/
theorem toLower_of_isDigit {c : Char} (hdigit : isDigit c = true) :
    c.toLower = c := by
  rcases toLower_eq_self_or_capital c with hself | ⟨k, hk, rfl⟩
  · exact hself
  · have hnone : ∀ k < 26, isDigit (Char.ofNat (65 + k)) = false := by
      decide +kernel
    rw [hnone k hk] at hdigit
    contradiction

namespace SameLetters

variable {cs ds cs' ds' : List Char}

theorem refl (cs : List Char) : SameLetters cs cs := Eq.refl _

theorem length_eq (hsame : SameLetters cs ds) : cs.length = ds.length := by
  rw [← List.length_map (f := Char.toLower), hsame, List.length_map]

theorem reverse (hsame : SameLetters cs ds) :
    SameLetters cs.reverse ds.reverse := by
  rw [SameLetters, List.map_reverse, hsame, List.map_reverse]

theorem nil_left (hsame : SameLetters [] ds) : ds = [] := by
  simpa [SameLetters] using hsame.symm

theorem cons_left {c : Char} (hsame : SameLetters (c :: cs) ds) :
    ∃ d ds', ds = d :: ds' ∧ c.toLower = d.toLower ∧ SameLetters cs ds' := by
  cases ds with
  | nil => simp [SameLetters] at hsame
  | cons d ds =>
      rw [SameLetters, List.map_cons, List.map_cons, List.cons.injEq] at hsame
      exact ⟨d, ds, rfl, hsame.1, hsame.2⟩

theorem cons {c d : Char} (hletter : c.toLower = d.toLower)
    (hsame : SameLetters cs ds) : SameLetters (c :: cs) (d :: ds) := by
  rw [SameLetters, List.map_cons, List.map_cons, hletter, hsame]

/-- A class that does not tell capitals from small letters ends a run at the
same place. -/
theorem dropWhile {p : Char → Bool}
    (hp : ∀ {c d : Char}, c.toLower = d.toLower → p c = p d)
    (hsame : SameLetters cs ds) :
    SameLetters (cs.dropWhile p) (ds.dropWhile p) := by
  induction cs generalizing ds with
  | nil =>
      rw [hsame.nil_left]
      exact refl _
  | cons c cs ih =>
      obtain ⟨d, ds, rfl, hletter, hrest⟩ := hsame.cons_left
      rw [List.dropWhile_cons, List.dropWhile_cons, hp hletter]
      split
      · exact ih hrest
      · exact hsame

theorem trimChars (hsame : SameLetters cs ds) :
    SameLetters (trimChars cs) (trimChars ds) :=
  ((hsame.dropWhile isBlank_eq_of_toLower_eq).reverse.dropWhile
    isBlank_eq_of_toLower_eq).reverse

theorem casedNext_eq (hsame : SameLetters cs ds) :
    casedNext cs = casedNext ds := by
  have hrest := hsame.dropWhile isCaseIgnorable_eq_of_toLower_eq
  unfold casedNext
  cases hcs : cs.dropWhile isCaseIgnorable with
  | nil =>
      rw [hcs] at hrest
      rw [hrest.nil_left]
  | cons c rest =>
      rw [hcs] at hrest
      obtain ⟨d, rest', hds, hletter, _⟩ := hrest.cons_left
      rw [hds]
      exact isCased_eq_of_toLower_eq hletter

/-- A sigma sees only which of its neighbours have case, so their own case does
not matter to it. -/
theorem lowerFrom_eq (hbefore : SameLetters cs' ds')
    (hsame : SameLetters cs ds) : lowerFrom cs' cs = lowerFrom ds' ds := by
  induction cs generalizing ds cs' ds' with
  | nil =>
      rw [hsame.nil_left]
      rfl
  | cons c cs ih =>
      obtain ⟨d, ds, rfl, hletter, hrest⟩ := hsame.cons_left
      have hsigma : c = 'Σ' ↔ d = 'Σ' := by
        rw [← beq_iff_eq, isSigma_eq_of_toLower_eq hletter, beq_iff_eq]
      rw [lowerFrom, lowerFrom, ih (hbefore.cons hletter) hrest, lowerSigma,
        lowerSigma, hbefore.casedNext_eq, hrest.casedNext_eq,
        lowerChar_eq_of_toLower_eq hletter]
      simp only [hsigma]

theorem lowerChars_eq (hsame : SameLetters cs ds) :
    lowerChars cs = lowerChars ds :=
  lowerFrom_eq (refl []) hsame

/-- A text of digits has no other spelling. -/
theorem eq_of_all_isDigit (hsame : SameLetters cs ds)
    (hdigits : cs.all isDigit = true) : cs = ds := by
  induction cs generalizing ds with
  | nil => exact hsame.nil_left.symm
  | cons c cs ih =>
      obtain ⟨d, ds, rfl, hletter, hrest⟩ := hsame.cons_left
      rw [List.all_cons, Bool.and_eq_true] at hdigits
      have hdigit : isDigit d = true :=
        isDigit_eq_of_toLower_eq hletter ▸ hdigits.1
      rw [toLower_of_isDigit hdigits.1, toLower_of_isDigit hdigit] at hletter
      rw [hletter, ih hrest hdigits.2]

theorem symm (hsame : SameLetters cs ds) : SameLetters ds cs := Eq.symm hsame

theorem readDecimal_eq (hsame : SameLetters cs ds) :
    readDecimal cs = readDecimal ds := by
  by_cases hdigits : cs.all isDigit = true
  · rw [hsame.eq_of_all_isDigit hdigits]
  · have hother : ¬ ds.all isDigit = true := by
      intro hds
      exact hdigits (hsame.symm.eq_of_all_isDigit hds ▸ hds)
    rw [readDecimal, readDecimal, if_neg fun h => hdigits h.2,
      if_neg fun h => hother h.2]

end SameLetters

/-- Blanks at either end are trimmed away, however many there are. -/
theorem trimChars_of_blank {before after : List Char}
    (hbefore : ∀ c ∈ before, isBlank c = true)
    (hafter : ∀ c ∈ after, isBlank c = true) (cs : List Char) :
    trimChars (before ++ cs ++ after) = trimChars cs := by
  have hend (ds : List Char) : trimEnd (ds ++ after) = trimEnd ds := by
    rw [trimEnd, List.reverse_append,
      List.dropWhile_append_of_pos (by simpa using hafter)]
    rfl
  have hall : after.dropWhile isBlank = [] :=
    List.dropWhile_eq_nil_iff.mpr hafter
  rw [trimChars, trimStart, List.append_assoc,
    List.dropWhile_append_of_pos hbefore, List.dropWhile_append]
  split
  · next hnil =>
      rw [List.isEmpty_iff] at hnil
      rw [hall, trimChars, trimStart, hnil]
  · rw [hend]
    rfl

end WebConfigAudit.Text
