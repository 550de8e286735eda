import Mathlib.Data.List.Nodup
import WebConfigAudit.Target.Collection
/-!
Paths are ordered by their steps, and totally so.  Sorted paths that make
different steps are in strictly rising order, whatever the order was that they
were given in.
-/

namespace WebConfigAudit

/-- The text of a step, if it is a name. -/
def Component.text : Component → String
  | .name text => text
  | _ => ""

/-- Steps are compared by two keys, each of a type whose order is known. -/
theorem Component.compare_eq :
    Component.compare =
      compareLex (compareOn Component.rank) (compareOn Component.text) := by
  funext a b
  cases a <;> cases b <;> rfl

instance : Std.TransCmp Component.compare := by
  rw [Component.compare_eq]
  infer_instance

instance : Std.LawfulEqCmp Component.compare where
  compare_self := Std.ReflCmp.compare_self
  eq_of_compare {a b} hcompare := by
    cases a <;> cases b <;> simp_all [Component.compare, Component.rank]

theorem Component.compareLists_eq :
    Component.compareLists = List.compareLex Component.compare := by
  funext as bs
  induction as generalizing bs with
  | nil => cases bs <;> rfl
  | cons a as ih =>
      cases bs with
      | nil => rfl
      | cons b bs => rw [compareLists, List.compareLex_cons_cons, ih]

namespace Path

theorem compare_eq : Path.compare = fun p q =>
    List.compareLex Component.compare p.components q.components := by
  funext p q
  rw [Path.compare, Component.compareLists_eq]

instance : Std.TransCmp Path.compare where
  eq_swap := by
    rw [compare_eq]
    exact Std.OrientedCmp.eq_swap
  isLE_trans := by
    rw [compare_eq]
    exact Std.TransCmp.isLE_trans

theorem compare_eq_iff {p q : Path} :
    p.compare q = .eq ↔ p.components = q.components := by
  rw [compare_eq]
  exact Std.LawfulEqCmp.compare_eq_iff_eq

theorem compare_swap (p q : Path) : q.compare p = (p.compare q).swap :=
  Std.OrientedCmp.eq_swap

theorem le_total (p q : Path) :
    ((p.compare q).isLE || (q.compare p).isLE) = true := by
  rw [compare_swap p q]
  cases p.compare q <;> rfl

theorem sort_perm (paths : List Path) : (sort paths).Perm paths :=
  List.mergeSort_perm paths _

@[simp] theorem mem_sort {paths : List Path} {p : Path} :
    p ∈ sort paths ↔ p ∈ paths :=
  (sort_perm paths).mem_iff

theorem pairwise_sort (paths : List Path) :
    (sort paths).Pairwise fun p q => (p.compare q).isLE = true :=
  List.pairwise_mergeSort (fun _ _ _ => Std.TransCmp.isLE_trans) le_total paths

/-- Sorted paths that make different steps are in rising order. -/
theorem pairwise_lt_sort {paths : List Path}
    (hdiffer : (paths.map components).Nodup) :
    (sort paths).Pairwise fun p q => p.compare q = .lt := by
  have hsteps : (sort paths).Pairwise fun p q => p.components ≠ q.components :=
    List.pairwise_map.mp
      (((sort_perm paths).map components).nodup_iff.mpr hdiffer)
  refine (pairwise_sort paths).imp₂ (fun p q hle hne => ?_) hsteps
  cases hcompare : p.compare q with
  | lt => rfl
  | eq => exact absurd (compare_eq_iff.mp hcompare) hne
  | gt => simp [hcompare] at hle

/-- The sorted list is the same for every order of the same paths. -/
theorem sort_eq_of_perm {paths others : List Path}
    (hdiffer : (paths.map components).Nodup) (hperm : others.Perm paths) :
    sort others = sort paths := by
  have hsorted : (sort others).Perm (sort paths) :=
    (sort_perm others).trans (hperm.trans (sort_perm paths).symm)
  refine hsorted.eq_of_pairwise (fun p q _ _ hpq hqp => ?_)
    (pairwise_lt_sort ((hperm.map components).nodup_iff.mpr hdiffer))
    (pairwise_lt_sort hdiffer)
  rw [compare_swap p q, hpq] at hqp
  contradiction

end Path

end WebConfigAudit
