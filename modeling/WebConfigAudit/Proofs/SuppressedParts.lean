import Mathlib.Data.List.Nodup
import WebConfigAudit.Proofs.SuppressionSplit
/-!
The two parts of a split by suppressions.  Both keep the order of the
violations, and each suppressed one goes with the first suppression that
applies.  Which violations stand depends only on what suppressions there are:
neither on their order, nor on suppressions of other files.
-/

namespace WebConfigAudit

/-- The suppression applies to the violation, and none before it in the list
does. -/
def Suppression.IsFirstFor (s : Suppression) (suppressions : List Suppression)
    (v : Violation) :
    Prop :=
  s.applies v = true ∧
    ∃ before after, suppressions = before ++ s :: after ∧
    ∀ t ∈ before, t.applies v = false

/-- What was found in a file, and the suppressions that the file declares. -/
structure FileFindings where
  file : String
  found : List Violation
  suppressions : List Suppression
  file_of_found : ∀ v ∈ found, v.file = file
  file_of_suppressions : ∀ s ∈ suppressions, s.file = file

section Parts

variable {suppressions : List Suppression} {found : List Violation}
  {v : Violation}

theorem isSome_suppressed? (suppressions : List Suppression) (v : Violation) :
    (suppressed? suppressions v).isSome = suppressions.any fun s =>
      s.applies v := by
  rw [suppressed?, Option.isSome_map, coveringSuppression?, Bool.eq_iff_iff,
    List.find?_isSome, List.any_eq_true]

theorem standing_eq_filter (suppressions : List Suppression)
    (found : List Violation) :
    (splitSuppressed suppressions found).1 =
      found.filter fun v => !suppressions.any fun s => s.applies v := by
  simp only [splitSuppressed_eq, isSome_suppressed?]

theorem suppressed_eq_filter (suppressions : List Suppression)
    (found : List Violation) :
    (splitSuppressed suppressions found).2.map SuppressedViolation.violation =
      found.filter fun v => suppressions.any fun s => s.applies v := by
  simp only [violations_of_suppressed, isSome_suppressed?]

theorem mem_suppressed_iff {p : SuppressedViolation} :
    p ∈ (splitSuppressed suppressions found).2 ↔
      p.violation ∈ found ∧ suppressed? suppressions p.violation = some p := by
  rw [splitSuppressed_eq, List.mem_filterMap]
  constructor
  · rintro ⟨v, hv, hp⟩
    obtain ⟨rfl, _⟩ := violation_of_suppressed? hp
    exact ⟨hv, hp⟩
  · rintro ⟨hv, hp⟩
    exact ⟨p.violation, hv, hp⟩

/-- What a violation is paired with is the first suppression that applies. -/
theorem isFirstFor_of_suppressed? {p : SuppressedViolation}
    (hp : suppressed? suppressions v = some p) :
    p.suppression.IsFirstFor suppressions v := by
  obtain ⟨s, hs, rfl⟩ := Option.map_eq_some_iff.mp hp
  obtain ⟨happlies, before, after, hsplit, hbefore⟩ :=
    List.find?_eq_some_iff_append.mp hs
  exact ⟨happlies, before, after, hsplit,
    fun t ht => by simpa using hbefore t ht⟩

theorem any_applies_congr {others : List Suppression}
    (hsame : ∀ s, s ∈ others ↔ s ∈ suppressions) (v : Violation) :
    (others.any fun s => s.applies v) = suppressions.any fun s =>
      s.applies v := by
  rw [Bool.eq_iff_iff, List.any_eq_true, List.any_eq_true]
  simp only [hsame]

/-- Suppressions behind the one that is paired with a violation make no
difference to it. -/
theorem suppressed?_append {p : SuppressedViolation}
    (hp : suppressed? suppressions v = some p) (more : List Suppression) :
    suppressed? (suppressions ++ more) v = some p := by
  obtain ⟨s, hs, rfl⟩ := Option.map_eq_some_iff.mp hp
  rw [coveringSuppression?] at hs
  rw [suppressed?, coveringSuppression?, List.find?_append, hs]
  rfl

theorem suppressed_sublist_append (suppressions more : List Suppression)
    (found : List Violation) :
    (splitSuppressed suppressions found).2.Sublist
      (splitSuppressed (suppressions ++ more) found).2 := by
  rw [splitSuppressed_eq, splitSuppressed_eq]
  induction found with
  | nil => exact List.Sublist.refl []
  | cons v rest ih =>
      cases hv : suppressed? suppressions v with
      | none =>
          rw [List.filterMap_cons_none hv]
          exact ih.trans ((List.sublist_cons_self v rest).filterMap _)
      | some p =>
          rw [List.filterMap_cons_some hv,
            List.filterMap_cons_some (suppressed?_append hv more)]
          exact ih.cons_cons p

theorem standing_append_sublist (suppressions more : List Suppression)
    (found : List Violation) :
    (splitSuppressed (suppressions ++ more) found).1.Sublist
      (splitSuppressed suppressions found).1 := by
  rw [standing_eq_filter, standing_eq_filter]
  refine List.monotone_filter_right found fun v hv => ?_
  rw [List.any_append, Bool.not_or, Bool.and_eq_true] at hv
  exact hv.1

/-- A violation that is suppressed stays suppressed, with the same suppression,
if more are added. -/
theorem suppressed_stays {p : SuppressedViolation}
    (hp : p ∈ (splitSuppressed suppressions found).2)
    (more : List Suppression) :
    p.violation ∉ (splitSuppressed (suppressions ++ more) found).1 ∧
      ∀ q ∈ (splitSuppressed (suppressions ++ more) found).2,
        q.violation = p.violation → q = p := by
  have hstill := suppressed?_append (mem_suppressed_iff.mp hp).2 more
  constructor
  · rw [splitSuppressed_eq, List.mem_filter, hstill]
    simp
  · intro q hq hsame
    have hpaired := (mem_suppressed_iff.mp hq).2
    rw [hsame, hstill] at hpaired
    exact (Option.some.inj hpaired).symm

end Parts

section Files

variable {suppressions : List Suppression} {found : List Violation}
  {v : Violation}

/-- Only suppressions of the violation's own file can apply. -/
theorem any_applies_filter_file (suppressions : List Suppression)
    (v : Violation) :
    ((suppressions.filter fun s => s.file == v.file).any fun s => s.applies v) =
      suppressions.any fun s => s.applies v := by
  rw [List.any_filter]
  congr 1
  funext s
  rw [Suppression.applies, Bool.and_assoc, ← Bool.and_assoc,
    BEq.comm (a := s.file), Bool.and_self]

theorem standing_filter_file (suppressions : List Suppression)
    (found : List Violation) (file : String) :
    (splitSuppressed suppressions found).1.filter (fun v => v.file == file) =
      (splitSuppressed (suppressions.filter fun s => s.file == file)
        (found.filter fun v => v.file == file)).1 := by
  rw [standing_eq_filter, standing_eq_filter, List.filter_filter,
    List.filter_filter]
  refine List.filter_congr fun v _ => ?_
  rw [Bool.and_comm]
  cases hfile : v.file == file with
  | false => simp
  | true =>
      rw [← beq_iff_eq.mp hfile, any_applies_filter_file]

/-- With the suppressions of several files, those of the violation's file are
the ones that count. -/
theorem any_applies_flatMap {files : List FileFindings}
    (hnodup : (files.map FileFindings.file).Nodup) {f : FileFindings}
    (hf : f ∈ files) (hv : v ∈ f.found) :
    ((files.flatMap FileFindings.suppressions).any fun s => s.applies v) =
      f.suppressions.any fun s => s.applies v := by
  rw [Bool.eq_iff_iff, List.any_eq_true, List.any_eq_true]
  constructor
  · rintro ⟨s, hs, happlies⟩
    obtain ⟨g, hg, hs⟩ := List.mem_flatMap.mp hs
    have hsame : g.file = f.file := by
      rw [← g.file_of_suppressions s hs, ← f.file_of_found v hv]
      simp only [Suppression.applies, Bool.and_eq_true, beq_iff_eq] at happlies
      exact happlies.1.1.symm
    obtain rfl := List.inj_on_of_nodup_map hnodup hg hf hsame
    exact ⟨s, hs, happlies⟩
  · rintro ⟨s, hs, happlies⟩
    exact ⟨s, List.mem_flatMap.mpr ⟨f, hf, hs⟩, happlies⟩

theorem standing_flatMap {files : List FileFindings}
    (hnodup : (files.map FileFindings.file).Nodup) :
    (splitSuppressed (files.flatMap FileFindings.suppressions)
        (files.flatMap FileFindings.found)).1 =
      files.flatMap fun f => (splitSuppressed f.suppressions f.found).1 := by
  rw [standing_eq_filter, List.filter_flatMap]
  refine List.flatMap_congr fun f hf => ?_
  rw [standing_eq_filter]
  refine List.filter_congr fun v hv => ?_
  rw [any_applies_flatMap hnodup hf hv]

end Files

/-- The split is exact and keeps the order.  What stands are the violations to
which no suppression applies; the others are suppressed, each with the first
suppression that applies.  What stands is the same for every list of the same
suppressions, in any order and however often repeated, while of two suppressions
that apply to one violation the order chooses.  More suppressions at the end
take violations away from those that stand and leave every pair as it is.  And
what stands of a file's violations depends on that file's suppressions alone, so
that the files of a run may be split together or one by one. -/
theorem split_is_stable_partition (suppressions : List Suppression)
    (found : List Violation) :
    let split := splitSuppressed suppressions found
    split.1 = (found.filter fun v => !suppressions.any fun s => s.applies v) ∧
    split.2.map SuppressedViolation.violation =
      (found.filter fun v => suppressions.any fun s => s.applies v) ∧
    (∀ p ∈ split.2, p.suppression.IsFirstFor suppressions p.violation) ∧
    (split.1 ++ split.2.map SuppressedViolation.violation).Perm found ∧
    (∀ others, (∀ s, s ∈ others ↔ s ∈ suppressions) →
      (splitSuppressed others found).1 = split.1) ∧
    (∀ s t v, s.applies v = true → t.applies v = true → s ≠ t →
      (splitSuppressed [s, t] [v]).2 ≠ (splitSuppressed [t, s] [v]).2) ∧
    (∀ more, let longer := splitSuppressed (suppressions ++ more) found
      longer.1.Sublist split.1 ∧ split.2.Sublist longer.2 ∧
        ∀ p ∈ split.2, p.violation ∉ longer.1 ∧ ∀ q ∈ longer.2,
          q.violation = p.violation → q = p) ∧
    (∀ file, split.1.filter (fun v => v.file == file) =
      (splitSuppressed (suppressions.filter fun s => s.file == file)
        (found.filter fun v => v.file == file)).1) ∧
    ∀ files : List FileFindings, (files.map FileFindings.file).Nodup →
      (splitSuppressed (files.flatMap FileFindings.suppressions)
          (files.flatMap FileFindings.found)).1 =
        files.flatMap fun f => (splitSuppressed f.suppressions f.found).1 := by
  intro split
  refine ⟨standing_eq_filter _ _, suppressed_eq_filter _ _, ?_,
    splitSuppressed_perm, ?_, ?_, ?_, standing_filter_file _ _,
    fun files => standing_flatMap⟩
  · intro p hp
    exact isFirstFor_of_suppressed? (mem_suppressed_iff.mp hp).2
  · intro others hsame
    rw [show split.1 = _ from standing_eq_filter _ _, standing_eq_filter]
    simp only [any_applies_congr hsame]
  · intro s t v hs ht hdiffer
    simpa [splitSuppressed, coveringSuppression?, hs, ht] using hdiffer
  · intro more longer
    exact ⟨standing_append_sublist _ _ _, suppressed_sublist_append _ _ _,
      fun p hp => suppressed_stays hp more⟩

namespace SuppressedPartsWitness

def tracing : Violation :=
  ⟨"shop/Web.config", "AvoidTracing", ⟨⟨3, 4⟩, ⟨3, 9⟩⟩, "tracing"⟩

def debugging : Violation :=
  ⟨"blog/Web.config", "AvoidDebugging", ⟨⟨3, 4⟩, ⟨3, 15⟩⟩, "debugging"⟩

/-- Every rule is off in the shop. -/
def everything : Suppression := ⟨"*", "", "shop/Web.config", 0, .file⟩

/-- The shop's tracing is off on one line. -/
def onLine : Suppression :=
  ⟨"avoidtracing", "until spring", "shop/Web.config", 3, .line⟩

/-- The same violation is found twice. -/
def shop : FileFindings where
  file := "shop/Web.config"
  found := [tracing, tracing]
  suppressions := [onLine, everything]
  file_of_found := by decide
  file_of_suppressions := by decide

def blog : FileFindings where
  file := "blog/Web.config"
  found := [debugging]
  suppressions := []
  file_of_found := by decide
  file_of_suppressions := by simp

theorem order_chooses_the_pair :
    (∀ s, s ∈ [everything, onLine, everything] ↔ s ∈ shop.suppressions) ∧
    (splitSuppressed [everything, onLine, everything] shop.found).1 =
      (splitSuppressed shop.suppressions shop.found).1 ∧
    onLine.applies tracing = true ∧ everything.applies tracing = true ∧
      onLine ≠ everything ∧
    (splitSuppressed [onLine, everything] [tracing]).2 ≠
      (splitSuppressed [everything, onLine] [tracing]).2 ∧
    ([shop, blog].map FileFindings.file).Nodup ∧
    (splitSuppressed ([shop, blog].flatMap FileFindings.suppressions)
        ([shop, blog].flatMap FileFindings.found)).1 =
      [shop, blog].flatMap fun f =>
        (splitSuppressed f.suppressions f.found).1 := by
  have hsame : ∀ s, s ∈ [everything, onLine, everything] ↔
      s ∈ shop.suppressions := by
    intro s
    simp only [shop, List.mem_cons, List.not_mem_nil, or_false]
    tauto
  have honLine : onLine.applies tracing = true := by decide
  have heverything : everything.applies tracing = true := by decide
  have hdiffer : onLine ≠ everything := by decide
  have hnodup : ([shop, blog].map FileFindings.file).Nodup := by decide
  obtain ⟨_, _, _, _, hothers, hpair, _, _, hfiles⟩ :=
    split_is_stable_partition shop.suppressions shop.found
  exact ⟨hsame, hothers _ hsame, honLine, heverything, hdiffer,
    hpair _ _ _ honLine heverything hdiffer, hnodup, hfiles _ hnodup⟩

end SuppressedPartsWitness

end WebConfigAudit
