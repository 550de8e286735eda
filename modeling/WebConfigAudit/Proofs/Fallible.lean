import Mathlib.Data.List.Forall2
/-!
Steps that may fail: when a sequence of two succeeds, and when a step succeeds
on every entry of a list.  What that gives is a second list whose entries are
related to those of the first.
-/

namespace WebConfigAudit

theorem eq_ok_of_isOk {α ε : Type} {x : Except ε α} (default : α)
    (hok : x.isOk = true) : x = .ok (x.toOption.getD default) := by
  cases x with
  | error e => contradiction
  | ok a => rfl

theorem eq_ok_of_toOption {α ε : Type} {x : Except ε α} {a : α}
    (hsome : x.toOption = some a) : x = .ok a := by
  cases x with
  | error e => contradiction
  | ok found =>
      cases hsome
      rfl

theorem bind_eq_ok_iff {α β ε : Type} {x : Except ε α} {f : α → Except ε β}
    {b : β} : x >>= f = .ok b ↔ ∃ a, x = .ok a ∧ f a = .ok b := by
  cases x with
  | error e => simp [bind, Except.bind]
  | ok a => simp [bind, Except.bind]

theorem map_eq_ok_iff {α β ε : Type} {x : Except ε α} {f : α → β} {b : β} :
    x.map f = .ok b ↔ ∃ a, x = .ok a ∧ f a = b := by
  cases x with
  | error e => simp [Except.map]
  | ok a => simp [Except.map]

theorem return_eq_ok_iff {α β ε : Type} {x : Except ε α} {f : α → β} {b : β} :
    (do return f (← x) : Except ε β) = .ok b ↔ ∃ a, x = .ok a ∧ f a = b := by
  rw [bind_eq_ok_iff]
  simp [pure, Except.pure]

/-- A fallible step over a list succeeds when it does so on every entry. -/
theorem mapM_eq_ok_iff {α β ε : Type} {f : α → Except ε β} {as : List α}
    {bs : List β} :
    as.mapM f = .ok bs ↔ List.Forall₂ (fun a b => f a = .ok b) as bs := by
  induction as generalizing bs with
  | nil =>
      rw [List.mapM_nil, List.forall₂_nil_left_iff]
      constructor
      · rintro ⟨⟩
        rfl
      · rintro rfl
        rfl
  | cons a as ih =>
      rw [List.mapM_cons, List.forall₂_cons_left_iff]
      simp only [bind_eq_ok_iff, ih]
      constructor
      · rintro ⟨b, hb, rest, hrest, ⟨⟩⟩
        exact ⟨b, rest, hb, hrest, rfl⟩
      · rintro ⟨b, rest, hb, hrest, rfl⟩
        exact ⟨b, hb, rest, hrest, rfl⟩

/-- Two fallible steps that agree on every entry agree on the list. -/
theorem mapM_congr_of_mem {α β ε : Type} {f g : α → Except ε β} {as : List α}
    (hsame : ∀ a ∈ as, f a = g a) : as.mapM f = as.mapM g := by
  induction as with
  | nil => rfl
  | cons a as ih =>
      rw [List.forall_mem_cons] at hsame
      rw [List.mapM_cons, List.mapM_cons, hsame.1, ih hsame.2]

/-- A fallible step that does not tell related entries apart does not tell the
lists apart. -/
theorem mapM_eq_of_forall₂ {α β ε : Type} {f : α → Except ε β}
    {R : α → α → Prop} (hsame : ∀ a b, R a b → f b = f a) {as bs : List α}
    (hall : List.Forall₂ R as bs) : bs.mapM f = as.mapM f := by
  induction hall with
  | nil => rfl
  | cons hhead _ ih => rw [List.mapM_cons, List.mapM_cons, hsame _ _ hhead, ih]

theorem exists_forall₂_iff {α β : Type} {R : α → β → Prop} {as : List α} :
    (∃ bs, List.Forall₂ R as bs) ↔ ∀ a ∈ as, ∃ b, R a b := by
  induction as with
  | nil => simp
  | cons a as ih =>
      rw [List.forall_mem_cons, ← ih]
      constructor
      · rintro ⟨bs, hbs⟩
        cases hbs with
        | cons hb hrest => exact ⟨⟨_, hb⟩, _, hrest⟩
      · rintro ⟨⟨b, hb⟩, bs, hbs⟩
        exact ⟨b :: bs, List.Forall₂.cons hb hbs⟩

theorem exists_of_mem_forall₂ {α β : Type} {R : α → β → Prop} {as : List α}
    {bs : List β} (hall : List.Forall₂ R as bs) {b : β} (hb : b ∈ bs) :
    ∃ a ∈ as, R a b := by
  induction hall with
  | nil => contradiction
  | cons hhead _ ih =>
      rcases List.mem_cons.mp hb with rfl | hb
      · exact ⟨_, List.mem_cons_self, hhead⟩
      · obtain ⟨a, ha, hrelated⟩ := ih hb
        exact ⟨a, List.mem_cons_of_mem _ ha, hrelated⟩

/-- What is read off related entries alike is read off the lists alike. -/
theorem map_eq_of_forall₂ {α β γ : Type} {R : α → β → Prop} {f : α → γ}
    {g : β → γ} (hsame : ∀ a b, R a b → g b = f a) {as : List α} {bs : List β}
    (hall : List.Forall₂ R as bs) : bs.map g = as.map f := by
  induction hall with
  | nil => rfl
  | cons hhead _ ih => rw [List.map_cons, List.map_cons, hsame _ _ hhead, ih]

/-- Where entries are related already, what each entry says for itself is what
the lists say. -/
theorem forall₂_iff_of_forall₂ {α β : Type} {R S : α → β → Prop} {P : α → Prop}
    {as : List α} {bs : List β} (hall : List.Forall₂ R as bs)
    (hsame : ∀ a b, R a b → (S a b ↔ P a)) :
    List.Forall₂ S as bs ↔ ∀ a ∈ as, P a := by
  induction hall with
  | nil => simp
  | cons hhead _ ih =>
      rw [List.forall₂_cons, List.forall_mem_cons, ih, hsame _ _ hhead]

end WebConfigAudit
