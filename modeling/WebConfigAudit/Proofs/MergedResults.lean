import Mathlib.Algebra.GroupWithZero.Nat
import WebConfigAudit.Proofs.SuppressionSplit
import WebConfigAudit.Proofs.ViolationOrder
/-!
The result for many files.  It is put together from the results for single
files, and the order and the grouping in which that happens do not show in it
once its violations are sorted.
-/

namespace WebConfigAudit

namespace AuditResult

/-- The results one after another. -/
def joined (results : List AuditResult) : AuditResult where
  violations := results.flatMap violations
  suppressed := results.flatMap suppressed
  scanned := (results.map scanned).sum
  failed := results.flatMap failed

theorem joined_append (results others : List AuditResult) :
    joined (results ++ others) = (joined results).merge (joined others) := by
  simp [joined, merge]

theorem joined_singleton (result : AuditResult) : joined [result] = result := by
  simp [joined]

theorem joined_cons (result : AuditResult) (results : List AuditResult) :
    joined (result :: results) = result.merge (joined results) := by
  rw [← List.singleton_append, joined_append, joined_singleton]

theorem merge_assoc (first second third : AuditResult) :
    (first.merge second).merge third = first.merge (second.merge third) := by
  simp [merge, Nat.add_assoc]

theorem merge_empty (result : AuditResult) : result.merge {} = result := by
  simp [merge]

theorem empty_merge (result : AuditResult) :
    AuditResult.merge {} result = result := by
  simp [merge]

theorem foldl_merge (result : AuditResult) (results : List AuditResult) :
    results.foldl merge result = result.merge (joined results) := by
  induction results generalizing result with
  | nil => exact (merge_empty result).symm
  | cons next results ih =>
      rw [List.foldl_cons, ih, merge_assoc, joined_cons]

variable {results others : List AuditResult}

theorem violations_perm (hperm : results.Perm others) :
    (joined results).violations.Perm (joined others).violations :=
  hperm.flatMap_right violations

theorem suppressed_perm (hperm : results.Perm others) :
    (joined results).suppressed.Perm (joined others).suppressed :=
  hperm.flatMap_right suppressed

theorem failed_perm (hperm : results.Perm others) :
    (joined results).failed.Perm (joined others).failed :=
  hperm.flatMap_right failed

theorem scanned_eq_of_perm (hperm : results.Perm others) :
    (joined results).scanned = (joined others).scanned :=
  (hperm.map scanned).sum_nat

theorem sorted_violations_of_perm (hperm : results.Perm others) :
    (joined results).sorted.violations = (joined others).sorted.violations :=
  Violation.sort_eq_of_perm (violations_perm hperm)

/-- Sorting moves violations about, so the counts stay. -/
theorem countFor_sorted (result : AuditResult) (rule : String) :
    result.sorted.countFor rule = result.countFor rule :=
  (Violation.sort_perm result.violations).countP_eq _

theorem countFor_joined (results : List AuditResult) (rule : String) :
    (joined results).countFor rule =
      (results.map fun result => result.countFor rule).sum := by
  rw [countFor, joined, List.countP_flatMap]
  rfl

end AuditResult

/-- Results merged in some order and in some grouping, from the empty result
on. -/
inductive MergePlan where
  | nothing
  | single (result : AuditResult)
  | both (first second : MergePlan)

namespace MergePlan

/-- The result that the plan leads to. -/
def outcome : MergePlan → AuditResult
  | .nothing => {}
  | .single result => result
  | .both first second => first.outcome.merge second.outcome

/-- The results that the plan merges, from the left to the right. -/
def results : MergePlan → List AuditResult
  | .nothing => []
  | .single result => [result]
  | .both first second => first.results ++ second.results

theorem outcome_eq_joined (plan : MergePlan) :
    plan.outcome = .joined plan.results := by
  induction plan with
  | nothing => rfl
  | single result => exact (AuditResult.joined_singleton result).symm
  | both first second ihFirst ihSecond =>
      rw [outcome, results, AuditResult.joined_append, ihFirst, ihSecond]

end MergePlan

namespace Analyzer

variable (a : Analyzer) (tree : FileTree)

theorem run_eq (targets : List Target) :
    a.run tree targets =
      (AuditResult.joined (targets.map (a.audit tree))).sorted := by
  rw [run, AuditResult.foldl_merge, AuditResult.empty_merge]

/-- A file is analyzed, or listed as failed, or neither. -/
theorem audit_scanned_add_failed_le (target : Target) :
    (a.audit tree target).scanned + (a.audit tree target).failed.length ≤
      1 := by
  unfold audit
  split <;> simp

theorem run_scanned_add_failed_le (targets : List Target) :
    (a.run tree targets).scanned + (a.run tree targets).failed.length ≤
      targets.length := by
  simp only [run_eq, AuditResult.sorted, AuditResult.joined]
  induction targets with
  | nil => simp
  | cons target targets ih =>
      have hfirst := audit_scanned_add_failed_le a tree target
      simp only [List.map_cons, List.sum_cons, List.flatMap_cons,
        List.length_append, List.length_cons] at ih ⊢
      omega

theorem run_countFor (targets : List Target) (rule : String) :
    (a.run tree targets).countFor rule =
      (targets.map fun target => (a.audit tree target).countFor rule).sum := by
  rw [run_eq, AuditResult.countFor_sorted, AuditResult.countFor_joined,
    List.map_map]
  rfl

end Analyzer

/-- A run over many files says of each of them what a run over it alone says.
The result for two lists of targets, one after the other, is the two results
side by side, with the violations merged in sorted order.  Another order of the
targets changes the order of the suppressed violations and of the failed files
only.  No file is counted twice, and the counts of a rule's violations add up.
However results are merged, the sorted violations are the same. -/
theorem run_decomposes_over_targets (a : Analyzer) (tree : FileTree) :
    (∀ targets others : List Target,
      let whole := a.run tree (targets ++ others)
      let first := a.run tree targets
      let second := a.run tree others
      whole.violations = first.violations.merge second.violations Violation.le ∧
        whole.scanned = first.scanned + second.scanned ∧
        whole.suppressed = first.suppressed ++ second.suppressed ∧
        whole.failed = first.failed ++ second.failed) ∧
    (∀ targets others : List Target, targets.Perm others →
      let first := a.run tree targets
      let second := a.run tree others
      first.violations = second.violations ∧ first.scanned = second.scanned ∧
        first.suppressed.Perm second.suppressed ∧
        first.failed.Perm second.failed) ∧
    (∀ targets : List Target,
      (a.run tree targets).scanned + (a.run tree targets).failed.length ≤
        targets.length) ∧
    (∀ (targets : List Target) (rule : String),
      (a.run tree targets).countFor rule =
        (targets.map fun target => (a.run tree [target]).countFor rule).sum) ∧
    (∀ plan other : MergePlan, plan.results.Perm other.results →
      plan.outcome.sorted.violations = other.outcome.sorted.violations) := by
  refine ⟨?_, ?_, a.run_scanned_add_failed_le tree, ?_, ?_⟩
  · intro targets others
    simp only [Analyzer.run_eq, List.map_append, AuditResult.joined_append]
    exact ⟨(Violation.merge_sort_sort _ _).symm, rfl, rfl, rfl⟩
  · intro targets others hperm
    have haudits := hperm.map (a.audit tree)
    simp only [Analyzer.run_eq]
    exact ⟨AuditResult.sorted_violations_of_perm haudits,
      AuditResult.scanned_eq_of_perm haudits,
      AuditResult.suppressed_perm haudits, AuditResult.failed_perm haudits⟩
  · intro targets rule
    simp [Analyzer.run_countFor]
  · intro plan other hperm
    rw [MergePlan.outcome_eq_joined, MergePlan.outcome_eq_joined]
    exact AuditResult.sorted_violations_of_perm hperm

namespace MergedResultsWitness

open SuppressionSplitWitness (analyzer tree target stranger)

/-- A result with a single violation, in the line given. -/
def resultAt (line : Nat) : AuditResult :=
  { violations := [⟨"Web.config", "AvoidTrace", ⟨⟨line, 1⟩, ⟨line, 9⟩⟩, ""⟩],
    scanned := 1 }

/-- From the left to the right. -/
def forwards : MergePlan :=
  .both (.both (.both .nothing (.single (resultAt 3))) (.single (resultAt 1)))
    (.single (resultAt 2))

def backwards : MergePlan :=
  .both (.single (resultAt 2))
    (.both (.single (resultAt 1)) (.single (resultAt 3)))

theorem order_does_not_show :
    [target, stranger, target].Perm [target, target, stranger] ∧
      (analyzer.run tree [target, stranger, target]).violations =
        (analyzer.run tree [target, target, stranger]).violations ∧
      forwards.results.Perm backwards.results ∧
      forwards.outcome.sorted.violations =
        backwards.outcome.sorted.violations := by
  have htargets : [target, stranger, target].Perm [target, target, stranger] :=
    (List.Perm.swap target stranger []).cons target
  have hresults : forwards.results.Perm backwards.results := by decide
  obtain ⟨_, horder, _, _, hplans⟩ := run_decomposes_over_targets analyzer tree
  exact ⟨htargets, (horder _ _ htargets).1, hresults,
    hplans forwards backwards hresults⟩

/-- The project's own file does not count. -/
example : (analyzer.run tree [target, stranger, target]).scanned = 2 := by
  decide +kernel

end MergedResultsWitness

end WebConfigAudit
