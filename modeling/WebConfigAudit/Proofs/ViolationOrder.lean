import WebConfigAudit.Audit.Violation
/-!
Violations are totally ordered, so their sorted list depends only on which of
them there are and how often.
-/

namespace WebConfigAudit

/-- The comparison goes through seven keys, each of a type whose order is
known. -/
instance : Std.TransCmp Violation.compare :=
  inferInstanceAs (Std.TransCmp <|
    compareLex (compareOn Violation.file) <|
    compareLex (compareOn Violation.rule) <|
      compareLex
        (compareLex
          (compareLex (compareOn fun v => v.span.start.line)
            (compareOn fun v => v.span.start.column))
          (compareLex (compareOn fun v => v.span.stop.line)
            (compareOn fun v => v.span.stop.column)))
        (compareOn Violation.message))

theorem Violation.eq_of_compare {v w : Violation}
    (hcompare : v.compare w = .eq) : v = w := by
  obtain ⟨vfile, vrule, ⟨⟨vline, vcolumn⟩, ⟨vlast, vend⟩⟩, vmessage⟩ := v
  obtain ⟨wfile, wrule, ⟨⟨wline, wcolumn⟩, ⟨wlast, wend⟩⟩, wmessage⟩ := w
  simp only [Violation.compare, Span.compare, Text.Position.compare,
    Ordering.then_eq_eq, Std.LawfulEqOrd.compare_eq_iff_eq] at hcompare
  obtain ⟨rfl, rfl, ⟨⟨rfl, rfl⟩, rfl, rfl⟩, rfl⟩ := hcompare
  rfl

namespace Violation

theorem le_trans (u v w : Violation) (huv : u.le v = true)
    (hvw : v.le w = true) : u.le w = true :=
  Std.TransCmp.isLE_trans huv hvw

theorem compare_swap (v w : Violation) : w.compare v = (v.compare w).swap :=
  Std.OrientedCmp.eq_swap

theorem le_total (v w : Violation) : (v.le w || w.le v) = true := by
  rw [le, le, compare_swap v w]
  cases v.compare w <;> rfl

theorem le_antisymm {v w : Violation} (hvw : v.le w = true)
    (hwv : w.le v = true) : v = w := by
  apply eq_of_compare
  rw [le] at hvw
  rw [le, compare_swap v w] at hwv
  cases hcompare : v.compare w with
  | eq => rfl
  | lt => simp [hcompare] at hwv
  | gt => simp [hcompare] at hvw

theorem sort_perm (violations : List Violation) :
    (sort violations).Perm violations :=
  List.mergeSort_perm violations le

theorem pairwise_sort (violations : List Violation) :
    (sort violations).Pairwise fun v w => v.le w = true :=
  List.pairwise_mergeSort le_trans le_total violations

/-- The sorted list is the same for every order of the same violations. -/
theorem sort_eq_of_perm {violations others : List Violation}
    (hperm : violations.Perm others) : sort violations = sort others := by
  have hsorted : (sort violations).Perm (sort others) :=
    (sort_perm violations).trans (hperm.trans (sort_perm others).symm)
  exact hsorted.eq_of_pairwise (fun v w _ _ hvw hwv => le_antisymm hvw hwv)
    (pairwise_sort violations) (pairwise_sort others)

/-- Two sorted lists merged are the sorted list of both. -/
theorem merge_sort_sort (violations others : List Violation) :
    (sort violations).merge (sort others) le = sort (violations ++ others) := by
  have hsorted : ((sort violations).merge (sort others) le).Pairwise fun v w =>
      v.le w = true :=
    List.pairwise_merge le_trans le_total _ _ (pairwise_sort violations)
      (pairwise_sort others)
  have hboth :
      ((sort violations).merge (sort others) le).Perm (violations ++ others) :=
    (List.merge_perm_append le).trans
      ((sort_perm violations).append (sort_perm others))
  exact (hboth.trans (sort_perm (violations ++ others)).symm).eq_of_pairwise
    (fun v w _ _ hvw hwv => le_antisymm hvw hwv) hsorted
    (pairwise_sort (violations ++ others))

end Violation

end WebConfigAudit
