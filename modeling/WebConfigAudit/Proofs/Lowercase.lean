import WebConfigAudit.Text.Lowercase
/-!
Lower-casing a text twice is the same as lower-casing it once, since no small
letter of the tables is a capital again.
-/

namespace WebConfigAudit.Text

/-- The capital I with a dot, as a stretch of one. -/
def dottedCapital : CapitalStretch := ⟨0x130, 0x130, 1, 0x69⟩

/-- Whether a code point is lower-cased to itself. -/
def isFixedPoint (n : Nat) : Bool :=
  (dottedCapital :: capitalStretches).all fun s => !s.covers n

namespace CapitalStretch

/-- Whether the small letters of one stretch lie outside another: before it,
after it, or, where both take every second code point, between its capitals. -/
def avoids (s t : CapitalStretch) : Bool :=
  s.image + (s.last - s.first) < t.first || t.last < s.image ||
    ((s.step == 2 || s.first == s.last) && t.step == 2 &&
      (s.image + t.first) % 2 == 1)

theorem covers_eq_true_iff {s : CapitalStretch} {n : Nat} :
    s.covers n = true ↔ s.first ≤ n ∧ n ≤ s.last ∧
      (n - s.first) % s.step = 0 := by
  simp [covers, and_assoc]

theorem not_covers_lower {s t : CapitalStretch} (havoids : s.avoids t = true)
    {n : Nat} (hcovers : s.covers n = true) : t.covers (s.lower n) = false := by
  obtain ⟨hfirst, hlast, hstep⟩ := covers_eq_true_iff.mp hcovers
  rw [Bool.eq_false_iff, ne_eq, covers_eq_true_iff, lower]
  rintro ⟨hfrom, hto, hcapital⟩
  simp only [avoids, Bool.or_eq_true, Bool.and_eq_true, decide_eq_true_eq,
    beq_iff_eq] at havoids
  rcases havoids with (hbefore | hafter) | ⟨⟨hspaced, htwo⟩, hodd⟩
  · omega
  · omega
  · rw [htwo] at hcapital
    rcases hspaced with hspaced | hsingle
    · rw [hspaced] at hstep
      omega
    · omega

end CapitalStretch

/-- The checks of the tables behind this module: small letters are no capitals,
and they are characters. -/
theorem capitalStretches_avoid : ∀ s ∈ capitalStretches,
    (dottedCapital :: capitalStretches).all s.avoids = true := by
  decide +kernel

theorem capitalStretches_valid : ∀ s ∈ capitalStretches,
    s.image + (s.last - s.first) < 0xd800 ∨
      0xdfff < s.image ∧ s.image + (s.last - s.first) < 0x110000 := by
  decide +kernel

theorem isFixedPoint_lower {s : CapitalStretch} (hs : s ∈ capitalStretches)
    {n : Nat} (hcovers : s.covers n = true) :
    isFixedPoint (s.lower n) = true := by
  rw [isFixedPoint, List.all_eq_true]
  intro t ht
  have havoids := List.all_eq_true.mp (capitalStretches_avoid s hs) t ht
  rw [CapitalStretch.not_covers_lower havoids hcovers]
  rfl

theorem isValidChar_lower {s : CapitalStretch} (hs : s ∈ capitalStretches)
    {n : Nat} (hcovers : s.covers n = true) : (s.lower n).isValidChar := by
  obtain ⟨hfirst, hlast, _⟩ := CapitalStretch.covers_eq_true_iff.mp hcovers
  rw [CapitalStretch.lower]
  rcases capitalStretches_valid s hs with hlow | ⟨hfrom, hto⟩
  · exact Or.inl (by omega)
  · exact Or.inr ⟨by omega, by omega⟩

theorem not_isFixedPoint_sigma : isFixedPoint 'Σ'.toNat = false := by
  decide +kernel

theorem lowerChar_of_isFixedPoint {c : Char}
    (hfixed : isFixedPoint c.toNat = true) : lowerChar c = [c] := by
  obtain ⟨hdotted, huncovered⟩ :=
    List.forall_mem_cons.mp (List.all_eq_true.mp hfixed)
  have hne : c.toNat ≠ 0x130 := by
    intro heq
    rw [heq] at hdotted
    contradiction
  have hnone : capitalStretches.find? (fun s => s.covers c.toNat) = none := by
    rw [List.find?_eq_none]
    intro s hs
    simpa using huncovered s hs
  rw [lowerChar, if_neg hne, hnone]

theorem isFixedPoint_of_mem_lowerChar {c d : Char} (hmem : d ∈ lowerChar c) :
    isFixedPoint d.toNat = true := by
  unfold lowerChar at hmem
  split at hmem
  · simp only [List.mem_cons, List.not_mem_nil, or_false] at hmem
    rcases hmem with rfl | rfl
    · decide +kernel
    · decide +kernel
  · next hdotted =>
      cases hfind : capitalStretches.find? fun s => s.covers c.toNat with
      | some s =>
          have hs := List.mem_of_find?_eq_some hfind
          have hcovers : s.covers c.toNat = true := by
            simpa using List.find?_some hfind
          rw [hfind, List.mem_singleton] at hmem
          rw [hmem, Char.toNat, Char.ofNat,
            dif_pos (isValidChar_lower hs hcovers)]
          exact isFixedPoint_lower hs hcovers
      | none =>
          rw [hfind, List.mem_singleton] at hmem
          rw [List.find?_eq_none] at hfind
          rw [hmem, isFixedPoint, List.all_eq_true, List.forall_mem_cons]
          constructor
          · rw [Bool.not_eq_true', Bool.eq_false_iff, ne_eq,
              CapitalStretch.covers_eq_true_iff]
            rintro ⟨hfrom, hto, _⟩
            simp only [dottedCapital] at hfrom hto
            omega
          · intro s hs
            simpa using hfind s hs

theorem isFixedPoint_lowerSigma (before after : List Char) :
    isFixedPoint (lowerSigma before after).toNat = true := by
  unfold lowerSigma
  split
  · decide +kernel
  · decide +kernel

/-- Only the small letter of a sigma depends on its neighbours, and both of its
forms stay as they are. -/
theorem isFixedPoint_of_mem_lowerFrom {before cs : List Char} {d : Char}
    (hmem : d ∈ lowerFrom before cs) : isFixedPoint d.toNat = true := by
  induction cs generalizing before with
  | nil => simp [lowerFrom] at hmem
  | cons c cs ih =>
      rw [lowerFrom, List.mem_append] at hmem
      rcases hmem with hhead | htail
      · split at hhead
        · rw [List.mem_singleton] at hhead
          rw [hhead]
          exact isFixedPoint_lowerSigma before cs
        · exact isFixedPoint_of_mem_lowerChar hhead
      · exact ih htail

theorem lowerFrom_of_isFixedPoint {before cs : List Char}
    (hfixed : ∀ c ∈ cs, isFixedPoint c.toNat = true) :
    lowerFrom before cs = cs := by
  induction cs generalizing before with
  | nil => rfl
  | cons c cs ih =>
      obtain ⟨hc, hcs⟩ := List.forall_mem_cons.mp hfixed
      have hsigma : c ≠ 'Σ' := by
        rintro rfl
        rw [not_isFixedPoint_sigma] at hc
        contradiction
      rw [lowerFrom, if_neg hsigma, lowerChar_of_isFixedPoint hc, ih hcs,
        List.singleton_append]

theorem lowerChars_lowerChars (cs : List Char) :
    lowerChars (lowerChars cs) = lowerChars cs :=
  lowerFrom_of_isFixedPoint fun _ hmem => isFixedPoint_of_mem_lowerFrom hmem

/-- The check of the table behind the next lemma: no letter of it lies before
the letter `A`. -/
theorem capitalStretches_letters :
    ∀ s ∈ capitalStretches, 0x41 ≤ s.first ∧ 0x41 ≤ s.image := by
  decide +kernel

/-- A sign before the letters is neither changed nor made. -/
theorem mem_lowerChar_iff {c : Char} (hsign : c.toNat < 0x41) (d : Char) :
    c ∈ lowerChar d ↔ c = d := by
  constructor
  · intro hmem
    unfold lowerChar at hmem
    split at hmem
    · simp only [List.mem_cons, List.not_mem_nil, or_false] at hmem
      rcases hmem with rfl | rfl
      · exact absurd hsign (by decide)
      · exact absurd hsign (by decide)
    · split at hmem
      · next s hfind =>
          have hs := List.mem_of_find?_eq_some hfind
          have hcovers : s.covers d.toNat = true := by
            simpa using List.find?_some hfind
          have himage := (capitalStretches_letters s hs).2
          rw [List.mem_singleton] at hmem
          rw [hmem, Char.toNat, Char.ofNat,
            dif_pos (isValidChar_lower hs hcovers)] at hsign
          change s.image + (d.toNat - s.first) < 0x41 at hsign
          omega
      · exact List.mem_singleton.mp hmem
  · rintro rfl
    have hnone : capitalStretches.find? (fun s => s.covers c.toNat) = none := by
      rw [List.find?_eq_none]
      intro s hs hcovers
      have hfirst := (capitalStretches_letters s hs).1
      have hfrom := (CapitalStretch.covers_eq_true_iff.mp hcovers).1
      omega
    rw [lowerChar, if_neg (by omega), hnone]
    exact List.mem_singleton_self c

theorem mem_lowerFrom_iff {c : Char} (hsign : c.toNat < 0x41)
    (before cs : List Char) : c ∈ lowerFrom before cs ↔ c ∈ cs := by
  have hsigma : c ≠ 'Σ' ∧ c ≠ 'ς' ∧ c ≠ 'σ' := by
    refine ⟨?_, ?_, ?_⟩ <;>
      · rintro rfl
        exact absurd hsign (by decide)
  induction cs generalizing before with
  | nil => simp [lowerFrom]
  | cons d cs ih =>
      have hrest : c ∈ lowerFrom (d :: before) cs ↔ c ∈ cs := ih (d :: before)
      rw [lowerFrom, List.mem_append, List.mem_cons, hrest]
      split
      · next hd =>
          have hmade : c ≠ lowerSigma before cs := by
            unfold lowerSigma
            split
            · exact hsigma.2.1
            · exact hsigma.2.2
          simp [hd, hmade, hsigma.1]
      · rw [mem_lowerChar_iff hsign]

theorem mem_lowerChars_iff {c : Char} (hsign : c.toNat < 0x41)
    {cs : List Char} : c ∈ lowerChars cs ↔ c ∈ cs :=
  mem_lowerFrom_iff hsign [] cs

end WebConfigAudit.Text
