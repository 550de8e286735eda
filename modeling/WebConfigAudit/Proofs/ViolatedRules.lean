import Mathlib.Data.List.Nodup
import WebConfigAudit.Report.Sarif
/-!
The rules that violations name: each of them once, and in the order of their
names.
-/

namespace WebConfigAudit

theorem nodup_eraseDups {α : Type} [BEq α] [LawfulBEq α] (as : List α) :
    as.eraseDups.Nodup := by
  -- the rest is looked through once more for each entry, so this is by the
  -- length of the list
  induction hlength : as.length using Nat.strongRecOn generalizing as with
  | ind n ih =>
      cases as with
      | nil => simp
      | cons a as =>
          have hshorter : (as.filter fun b => !b == a).length < n := by
            have hfilter := List.length_filter_le (fun b => !b == a) as
            rw [List.length_cons] at hlength
            omega
          rw [List.eraseDups_cons, List.nodup_cons]
          exact ⟨by simp, ih _ hshorter _ rfl⟩

theorem perm_sarifRuleIds (violations : List Violation) :
    (sarifRuleIds violations).Perm (violations.map Violation.rule).eraseDups :=
  List.mergeSort_perm _ _

theorem mem_sarifRuleIds {violations : List Violation} {id : String} :
    id ∈ sarifRuleIds violations ↔ id ∈ violations.map Violation.rule := by
  rw [(perm_sarifRuleIds violations).mem_iff, List.mem_eraseDups]

theorem nodup_sarifRuleIds (violations : List Violation) :
    (sarifRuleIds violations).Nodup :=
  (perm_sarifRuleIds violations).nodup_iff.mpr (nodup_eraseDups _)

theorem isLE_compare_total (name other : String) :
    ((compare name other).isLE || (compare other name).isLE) = true := by
  have hswap : compare other name = (compare name other).swap :=
    Std.OrientedCmp.eq_swap
  rw [hswap]
  cases compare name other <;> rfl

theorem lt_of_isLE_of_ne {name other : String}
    (hle : (compare name other).isLE = true) (hne : name ≠ other) :
    name < other := by
  cases hcompare : compare name other with
  | lt => exact compareOfLessAndEq_eq_lt.mp hcompare
  | eq => exact absurd (Std.LawfulEqCmp.eq_of_compare hcompare) hne
  | gt => simp [hcompare] at hle

/-- The rules stand in rising order of their names. -/
theorem pairwise_sarifRuleIds (violations : List Violation) :
    (sarifRuleIds violations).Pairwise (· < ·) := by
  have hsorted : (sarifRuleIds violations).Pairwise fun a b =>
      (compare a b).isLE = true :=
    List.pairwise_mergeSort (fun _ _ _ => Std.TransCmp.isLE_trans)
      isLE_compare_total _
  exact hsorted.imp₂ (fun _ _ => lt_of_isLE_of_ne)
    (nodup_sarifRuleIds violations)

end WebConfigAudit
