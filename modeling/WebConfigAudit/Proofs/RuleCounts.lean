import Mathlib.Algebra.BigOperators.Group.List.Lemmas
import Mathlib.Algebra.GroupWithZero.Nat
import WebConfigAudit.Audit.Result
import WebConfigAudit.Proofs.ViolatedRules
import WebConfigAudit.Report.Summary
/-!
How many violations each rule has.  The rows of a breakdown are told by the
violations alone: one for each rule that occurs, with the number of its
violations, in an order that leaves no choice.
-/

namespace WebConfigAudit

namespace RuleCount

/-- One row stands before another: a larger count, or the same count and the
lesser name. -/
def Precedes (a b : RuleCount) : Prop :=
  b.count < a.count ∨ a.count = b.count ∧ a.rule < b.rule

variable {a b : RuleCount}

theorem Precedes.asymm (hab : a.Precedes b) : ¬ b.Precedes a := by
  rintro (hcount | ⟨hcount, hname⟩)
  · rcases hab with hother | ⟨hother, _⟩
    · exact Nat.lt_asymm hcount hother
    · omega
  · rcases hab with hother | ⟨_, hother⟩
    · omega
    · exact String.lt_asymm hname hother

theorem le_iff :
    a.le b = true ↔
      b.count < a.count ∨ a.count = b.count ∧
      (compare a.rule b.rule).isLE = true := by
  simp [le]

theorem le_trans (a b c : RuleCount) (hab : a.le b = true)
    (hbc : b.le c = true) : a.le c = true := by
  rw [le_iff] at hab hbc ⊢
  rcases hab with hab | ⟨hcount, hname⟩
  · rcases hbc with hbc | ⟨hcount', _⟩
    · exact Or.inl (Nat.lt_trans hbc hab)
    · exact Or.inl (hcount' ▸ hab)
  · rcases hbc with hbc | ⟨hcount', hname'⟩
    · exact Or.inl (hcount ▸ hbc)
    · exact Or.inr ⟨hcount.trans hcount', Std.TransCmp.isLE_trans hname hname'⟩

theorem le_total (a b : RuleCount) : (a.le b || b.le a) = true := by
  rw [Bool.or_eq_true, le_iff, le_iff]
  rcases Nat.lt_trichotomy a.count b.count with hless | hequal | hmore
  · exact Or.inr (Or.inl hless)
  · have hnames := isLE_compare_total a.rule b.rule
    rw [Bool.or_eq_true] at hnames
    exact hnames.imp (fun hname => Or.inr ⟨hequal, hname⟩) fun hname =>
      Or.inr ⟨hequal.symm, hname⟩
  · exact Or.inl (Or.inl hmore)

theorem precedes_of_le (hle : a.le b = true) (hrules : a.rule ≠ b.rule) :
    a.Precedes b := by
  rcases le_iff.mp hle with hcount | ⟨hcount, hname⟩
  · exact Or.inl hcount
  · exact Or.inr ⟨hcount, lt_of_isLE_of_ne hname hrules⟩

end RuleCount

/-- The rows of a breakdown, said without making it: each rule that occurs once,
with the number of its violations, the larger counts first and equal counts by
name. -/
structure IsHistogram (violations : List Violation) (rows : List RuleCount) :
    Prop where
  once : (rows.map RuleCount.rule).Nodup
  occurs : ∀ rule, rule ∈ rows.map RuleCount.rule ↔
    ∃ v ∈ violations, v.rule = rule
  count : ∀ row ∈ rows, row.count = violations.countP fun v =>
    v.rule == row.rule
  ordered : rows.Pairwise RuleCount.Precedes

/-- The number that the rows have for a rule; none for a rule without a row. -/
def countAmong (rows : List RuleCount) (rule : String) : Nat :=
  ((rows.find? fun row => row.rule == rule).map RuleCount.count).getD 0

section Rows

variable {violations others : List Violation} {rows : List RuleCount}
  {rule : String}

theorem breakdown_perm (violations : List Violation) :
    (breakdown violations).Perm ((violatedRules violations).map fun rule =>
      ⟨rule, violations.countP fun v => v.rule == rule⟩) :=
  List.mergeSort_perm _ _

theorem map_rule_breakdown_perm (violations : List Violation) :
    ((breakdown violations).map RuleCount.rule).Perm
      (violatedRules violations) := by
  have hrules := (breakdown_perm violations).map RuleCount.rule
  rwa [List.map_map, show (RuleCount.rule ∘ fun rule =>
    (⟨rule, violations.countP fun v => v.rule == rule⟩ : RuleCount)) = id
  from rfl,
    List.map_id] at hrules

theorem mem_violatedRules :
    rule ∈ violatedRules violations ↔ ∃ v ∈ violations, v.rule = rule := by
  rw [violatedRules, List.mem_eraseDups, List.mem_map]

theorem isHistogram_breakdown (violations : List Violation) :
    IsHistogram violations (breakdown violations) := by
  have honce : ((breakdown violations).map RuleCount.rule).Nodup :=
    (map_rule_breakdown_perm violations).nodup_iff.mpr (nodup_eraseDups _)
  have hsorted : (breakdown violations).Pairwise fun a b => a.le b = true :=
    List.pairwise_mergeSort RuleCount.le_trans RuleCount.le_total _
  refine ⟨honce, fun rule => ?_, fun row hrow => ?_, ?_⟩
  · rw [(map_rule_breakdown_perm violations).mem_iff, mem_violatedRules]
  · rw [(breakdown_perm violations).mem_iff, List.mem_map] at hrow
    obtain ⟨rule, _, rfl⟩ := hrow
    rfl
  · exact hsorted.imp₂ (fun _ _ => RuleCount.precedes_of_le)
      (List.pairwise_map.mp honce)

/-- The violations settle which rows there are. -/
theorem IsHistogram.mem_iff (hrows : IsHistogram violations rows)
    (row : RuleCount) :
    row ∈ rows ↔ (∃ v ∈ violations, v.rule = row.rule) ∧
      row.count = violations.countP fun v => v.rule == row.rule := by
  constructor
  · intro hrow
    exact ⟨(hrows.occurs row.rule).mp (List.mem_map_of_mem hrow),
      hrows.count row hrow⟩
  · rintro ⟨hoccurs, hcount⟩
    obtain ⟨same, hsame, hrule⟩ :=
      List.mem_map.mp ((hrows.occurs row.rule).mpr hoccurs)
    have hrow : row = same := by
      obtain ⟨rule, count⟩ := row
      obtain ⟨rule', count'⟩ := same
      have hcount' := hrows.count _ hsame
      dsimp only at hrule hcount hcount'
      rw [hcount, hcount', hrule]
    rwa [hrow]

/-- The order leaves no choice: there is one histogram. -/
theorem IsHistogram.eq_breakdown (hrows : IsHistogram violations rows) :
    rows = breakdown violations := by
  have hbreakdown := isHistogram_breakdown violations
  have hperm : rows.Perm (breakdown violations) :=
    (List.perm_ext_iff_of_nodup hrows.once.of_map hbreakdown.once.of_map).mpr
      fun row =>
        (hrows.mem_iff row).trans (hbreakdown.mem_iff row).symm
  exact hperm.eq_of_pairwise (fun _ _ _ _ hab hba => absurd hba hab.asymm)
    hrows.ordered hbreakdown.ordered

theorem IsHistogram.of_perm (hrows : IsHistogram violations rows)
    (hperm : violations.Perm others) : IsHistogram others rows where
  once := hrows.once
  occurs rule := by simp only [hrows.occurs, hperm.mem_iff]
  count row hrow := (hrows.count row hrow).trans (hperm.countP_eq _)
  ordered := hrows.ordered

theorem countAmong_breakdown (violations : List Violation) (rule : String) :
    countAmong (breakdown violations) rule = violations.countP fun v =>
      v.rule == rule := by
  have hrows := isHistogram_breakdown violations
  rw [countAmong]
  cases hfound : (breakdown violations).find? fun row => row.rule == rule with
  | some row =>
      obtain rfl : row.rule = rule := by simpa using List.find?_some hfound
      exact hrows.count row (List.mem_of_find?_eq_some hfound)
  | none =>
      -- a rule without a row has no violation either
      refine (List.countP_eq_zero.mpr fun v hv hrule => ?_).symm
      rw [beq_iff_eq] at hrule
      obtain ⟨row, hrow, hsame⟩ :=
        List.mem_map.mp ((hrows.occurs rule).mpr ⟨v, hv, hrule⟩)
      exact List.find?_eq_none.mp hfound row hrow (beq_iff_eq.mpr hsame)

/-- Every violation is in the count of one row. -/
theorem sum_count_breakdown (violations : List Violation) :
    ((breakdown violations).map RuleCount.count).sum = violations.length := by
  have hrules :
      (violatedRules violations).Perm (violations.map Violation.rule).dedup :=
    (List.perm_ext_iff_of_nodup (nodup_eraseDups _) (List.nodup_dedup _)).mpr
      fun rule => by
      rw [List.mem_eraseDups, List.mem_dedup]
  calc ((breakdown violations).map RuleCount.count).sum
      = ((violatedRules violations).map fun rule =>
          violations.countP fun v => v.rule == rule).sum := by
        rw [((breakdown_perm violations).map RuleCount.count).sum_nat,
          List.map_map]
        rfl
    _ = ((violations.map Violation.rule).dedup.map fun rule =>
          (violations.map Violation.rule).count rule).sum := by
        rw [(hrules.map _).sum_nat]
        simp only [List.count_eq_countP, List.countP_map, Function.comp_def]
    _ = violations.length := by
      rw [List.sum_map_count_dedup_eq_length, List.length_map]

end Rows

/-- The breakdown is the one histogram of the violations, so no order of them
shows in it.  Its counts are those of a result with these violations, and add
up to their number.  When two results are merged, the counts of each rule add
up. -/
theorem breakdown_is_histogram (violations : List Violation) :
    (∀ rows, IsHistogram violations rows ↔ rows = breakdown violations) ∧
    (∀ result : AuditResult, result.violations = violations →
      ∀ row ∈ breakdown violations, row.count = result.countFor row.rule) ∧
    ((breakdown violations).map RuleCount.count).sum = violations.length ∧
    (∀ others, violations.Perm others →
      breakdown others = breakdown violations) ∧
    ∀ (result other : AuditResult) (rule : String),
      (result.merge other).countFor rule =
        result.countFor rule + other.countFor rule ∧
      countAmong (breakdown (result.merge other).violations) rule =
        countAmong (breakdown result.violations) rule +
          countAmong (breakdown other.violations) rule := by
  have hbreakdown := isHistogram_breakdown violations
  refine ⟨fun rows =>
      ⟨IsHistogram.eq_breakdown, fun hrows => hrows ▸ hbreakdown⟩, ?_,
    sum_count_breakdown violations, ?_, ?_⟩
  · rintro result rfl row hrow
    exact hbreakdown.count row hrow
  · intro others hperm
    exact (hbreakdown.of_perm hperm).eq_breakdown.symm
  · intro result other rule
    have hsum : (result.merge other).countFor rule =
        result.countFor rule + other.countFor rule :=
      List.countP_append
    rw [countAmong_breakdown, countAmong_breakdown, countAmong_breakdown]
    exact ⟨hsum, hsum⟩

namespace RuleCountsWitness

def violationOf (rule file : String) (line : Nat) : Violation :=
  ⟨file, rule, ⟨⟨line, 5⟩, ⟨line, 17⟩⟩, ""⟩

/-- Two rules with as many violations, one of them in two files, and one rule
with fewer. -/
def violations : List Violation :=
  [violationOf "FixTimeout" "Web.config" 7,
   violationOf "AvoidTrace" "Web.config" 3,
   violationOf "AvoidDebug" "Web.config" 4,
   violationOf "AvoidTrace" "Admin/Web.config" 3,
   violationOf "AvoidDebug" "Web.config" 9]

def result : AuditResult := { violations := violations, scanned := 2 }

/-- The tie is settled by the names. -/
def rows : List RuleCount :=
  [⟨"AvoidDebug", 2⟩, ⟨"AvoidTrace", 2⟩, ⟨"FixTimeout", 1⟩]

theorem isHistogram_rows : IsHistogram violations rows where
  once := by decide
  occurs rule := by
    simp only [rows, violations, violationOf, List.map_cons, List.map_nil,
      List.mem_cons, List.not_mem_nil, or_false, exists_eq_or_imp,
      exists_eq_left]
    constructor
    · rintro (rfl | rfl | rfl) <;> simp
    · rintro (rfl | rfl | rfl | rfl | rfl) <;> simp
  count := by decide
  ordered := by unfold RuleCount.Precedes; decide

theorem ties_stand_by_name :
    IsHistogram violations rows ∧ rows = breakdown violations ∧
      violations.Perm violations.reverse ∧
      breakdown violations.reverse = breakdown violations ∧
      ⟨"AvoidTrace", 2⟩ ∈ breakdown violations ∧
      2 = result.countFor "AvoidTrace" := by
  obtain ⟨honly, hcount, _, horder, _⟩ := breakdown_is_histogram violations
  have hrows : rows = breakdown violations := (honly rows).mp isHistogram_rows
  have hperm : violations.Perm violations.reverse :=
    violations.reverse_perm.symm
  have hrow : ⟨"AvoidTrace", 2⟩ ∈ breakdown violations := hrows ▸ by decide
  exact ⟨isHistogram_rows, hrows, hperm, horder _ hperm, hrow,
    hcount result rfl _ hrow⟩

end RuleCountsWitness

end WebConfigAudit
