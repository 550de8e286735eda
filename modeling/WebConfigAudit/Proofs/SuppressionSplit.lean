import Mathlib.Data.List.Perm.Basic
import WebConfigAudit.Proofs.Fallible
import WebConfigAudit.Proofs.FileOutcomes
import WebConfigAudit.Rule.Builtin
/-!
What suppressions do to the violations of a file.  Every violation that was
found either stands or is suppressed, with a suppression of the same file that
applies to it, and none is lost on the way.
-/

namespace WebConfigAudit

section Split

variable (suppressions : List Suppression) (found : List Violation)

/-- The violation with the suppression that covers it, if there is one. -/
def suppressed? (v : Violation) : Option SuppressedViolation :=
  (coveringSuppression? suppressions v).map fun s => ⟨v, s⟩

/-- The split keeps the order on both sides. -/
theorem splitSuppressed_eq :
    splitSuppressed suppressions found =
      (found.filter fun v => !(suppressed? suppressions v).isSome,
        found.filterMap (suppressed? suppressions)) := by
  induction found with
  | nil => rfl
  | cons v rest ih =>
      rw [splitSuppressed, ih, List.filter_cons, List.filterMap_cons]
      unfold suppressed?
      cases coveringSuppression? suppressions v with
      | none => rfl
      | some s => rfl

theorem splitSuppressed_nil : splitSuppressed [] found = (found, []) := by
  induction found with
  | nil => rfl
  | cons v rest ih =>
      rw [splitSuppressed, ih]
      rfl

variable {suppressions found}

theorem violation_of_suppressed? {v : Violation} {s : SuppressedViolation}
    (hs : suppressed? suppressions v = some s) :
    s.violation = v ∧ s.suppression ∈ suppressions ∧
      s.suppression.applies v = true := by
  obtain ⟨covering, hcovering, rfl⟩ := Option.map_eq_some_iff.mp hs
  exact ⟨rfl, List.mem_of_find?_eq_some hcovering,
    List.find?_some (p := fun s : Suppression => s.applies v) hcovering⟩

theorem map_violation_filterMap :
    (found.filterMap (suppressed? suppressions)).map
        SuppressedViolation.violation =
      found.filter fun v => (suppressed? suppressions v).isSome := by
  induction found with
  | nil => rfl
  | cons v rest ih =>
      cases hv : suppressed? suppressions v with
      | none =>
          rw [List.filterMap_cons_none hv,
            List.filter_cons_of_neg (by simp [hv]), ih]
      | some s =>
          rw [List.filterMap_cons_some hv,
            List.filter_cons_of_pos (by simp [hv]), List.map_cons, ih,
            (violation_of_suppressed? hv).1]

/-- The violations that are suppressed are those that some suppression
covers. -/
theorem violations_of_suppressed :
    (splitSuppressed suppressions found).2.map SuppressedViolation.violation =
      found.filter fun v => (suppressed? suppressions v).isSome := by
  rw [splitSuppressed_eq]
  exact map_violation_filterMap

theorem splitSuppressed_perm :
    ((splitSuppressed suppressions found).1 ++
      (splitSuppressed suppressions found).2.map
        SuppressedViolation.violation).Perm found := by
  rw [violations_of_suppressed, splitSuppressed_eq]
  exact List.perm_append_comm.trans
    (List.filter_append_perm (fun v => (suppressed? suppressions v).isSome)
      found)

theorem standing_sublist :
    (splitSuppressed suppressions found).1.Sublist found := by
  rw [splitSuppressed_eq]
  exact List.filter_sublist

theorem suppressed_sublist :
    ((splitSuppressed suppressions found).2.map
      SuppressedViolation.violation).Sublist found := by
  rw [violations_of_suppressed]
  exact List.filter_sublist

theorem applies_of_mem_suppressed {s : SuppressedViolation}
    (hs : s ∈ (splitSuppressed suppressions found).2) :
    s.suppression ∈ suppressions ∧ s.suppression.applies s.violation =
      true := by
  rw [splitSuppressed_eq] at hs
  obtain ⟨v, _, hv⟩ := List.mem_filterMap.mp hs
  obtain ⟨rfl, hmem, happlies⟩ := violation_of_suppressed? hv
  exact ⟨hmem, happlies⟩

end Split

theorem file_of_mem_suppressionsOfLines {file : String} {number : Nat}
    {lines : List (List Char)} {s : Suppression}
    (hs : s ∈ suppressionsOfLines file number lines) : s.file = file := by
  induction lines generalizing number with
  | nil => contradiction
  | cons line lines ih =>
      rw [suppressionsOfLines] at hs
      split at hs
      · rcases List.mem_cons.mp hs with rfl | hs
        · rfl
        · exact ih hs
      · exact ih hs

/-- A file's suppressions are of that file. -/
theorem file_of_mem_readSuppressions {file content : String} {s : Suppression}
    (hs : s ∈ readSuppressions file content) : s.file = file :=
  file_of_mem_suppressionsOfLines hs

section Audit

variable {a : Analyzer} {tree : FileTree} {target : Target} {content : String}
  {nodes : List Node}

/-- The cases in which nothing is split make no difference. -/
theorem FileTree.splitFound_eq {path : Path}
    (hcontent : tree.readText path = .ok content) (found : List Violation) :
    tree.splitFound path found =
      splitSuppressed (readSuppressions path.text content) found := by
  unfold splitFound
  split
  · next hempty =>
      rw [List.isEmpty_iff.mp hempty]
      rfl
  · simp only [hcontent]
    split
    · next hnone => rw [List.isEmpty_iff.mp hnone, splitSuppressed_nil]
    · rfl

theorem Analyzer.introduce_eq (heligible : tree.isEligible target = true)
    (hreader : a.hasReader = true)
    (hcontent : tree.readText target.config = .ok content)
    (hnodes : readConfiguration a.rules.tags content = .ok nodes)
    (sink : List Violation) :
    a.introduce tree target sink =
      (.analyzed (walkNodes a.rules target.config.text nodes sink).2,
        (walkNodes a.rules target.config.text nodes sink).1) := by
  rw [introduce_of_text (FileTree.isEligible_eq_true_iff.mp heligible)
    hreader hcontent]
  simp [analyzeSource, hreader, hnodes]

/-- What becomes of a file that was analyzed. -/
theorem Analyzer.audit_of_analyzed {summary : WalkSummary}
    {found : List Violation}
    (hfound : a.introduce tree target [] = (.analyzed summary, found)) :
    a.audit tree target =
      { violations := (tree.splitFound target.config found).1
        suppressed := (tree.splitFound target.config found).2
        scanned := 1 } := by
  rw [audit, hfound]

/-- What becomes of a file that was not analyzed. -/
theorem Analyzer.audit_of_not_analyzed
    (hother : ∀ summary, (a.introduce tree target []).1 ≠ .analyzed summary) :
    a.audit tree target =
      { failed :=
          if (a.introduce tree target []).1 = .unreadable ∨
              (a.introduce tree target []).1 = .malformed then
                [target.config.text]
          else [] } := by
  unfold audit
  generalize a.introduce tree target [] = introduced at hother ⊢
  obtain ⟨outcome, found⟩ := introduced
  cases outcome with
  | analyzed summary => exact absurd rfl (hother summary)
  | ineligible => rfl
  | noReader => rfl
  | unreadable => rfl
  | malformed => rfl

/-- The result for a file that can be read is what its suppressions make of the
walk's reports. -/
theorem Analyzer.audit_of_nodes (heligible : tree.isEligible target = true)
    (hreader : a.hasReader = true)
    (hcontent : tree.readText target.config = .ok content)
    (hnodes : readConfiguration a.rules.tags content = .ok nodes) :
    a.audit tree target =
      let split := splitSuppressed (readSuppressions target.config.text content)
        (walkNodes a.rules target.config.text nodes []).1
      { violations := split.1, suppressed := split.2, scanned := 1 } := by
  have hfound := Analyzer.introduce_eq heligible hreader hcontent hnodes []
  rw [Analyzer.audit_of_analyzed hfound, FileTree.splitFound_eq hcontent]

/-- The files that are listed as failed. -/
theorem Analyzer.failed_audit :
    (a.audit tree target).failed =
      if (a.introduce tree target []).1 = .unreadable ∨
      (a.introduce tree target []).1 = .malformed
      then [target.config.text] else [] := by
  by_cases hanalyzed : ∃ summary, (a.introduce tree target []).1 =
      .analyzed summary
  · obtain ⟨summary, hsummary⟩ := hanalyzed
    have hfound : a.introduce tree target [] =
        (.analyzed summary, (a.introduce tree target []).2) :=
      Prod.ext hsummary rfl
    rw [Analyzer.audit_of_analyzed hfound, hsummary]
    simp
  · have hother : ∀ summary, (a.introduce tree target []).1 ≠
        .analyzed summary :=
      fun summary hsummary => hanalyzed ⟨summary, hsummary⟩
    rw [Analyzer.audit_of_not_analyzed hother]

end Audit

/-- Suppressing neither loses nor alters a violation.  For a file that is
analyzed, the result is what the suppressions in its text make of the walk's
reports, whether or not there are any of either; the violations that stand and
those that are suppressed are the reports again, each part in their order, and
each suppression is one of the same file that applies.  Any other file yields no
violation, and is listed as failed if it cannot be read or is no document. -/
theorem audit_conserves_violations (a : Analyzer) (tree : FileTree)
    (target : Target) :
    let result := a.audit tree target
    let outcome := (a.introduce tree target []).1
    (∀ content nodes, tree.isEligible target = true → a.hasReader = true →
      tree.readText target.config = .ok content →
      readConfiguration a.rules.tags content = .ok nodes →
        let found := (walkNodes a.rules target.config.text nodes []).1
        let suppressions := readSuppressions target.config.text content
        result.scanned = 1 ∧ result.failed = [] ∧
          (result.violations, result.suppressed) =
            splitSuppressed suppressions found ∧
          (result.violations ++
            result.suppressed.map SuppressedViolation.violation).Perm found ∧
          result.violations.Sublist found ∧
          (result.suppressed.map SuppressedViolation.violation).Sublist found ∧
          ∀ s ∈ result.suppressed, s.suppression ∈ suppressions ∧
            s.suppression.file = target.config.text ∧
            s.suppression.applies s.violation = true) ∧
      ((∀ summary, outcome ≠ .analyzed summary) →
        result.violations = [] ∧ result.suppressed = [] ∧ result.scanned = 0) ∧
      result.failed =
        if outcome = .unreadable ∨ outcome = .malformed then
          [target.config.text] else [] := by
  intro result outcome
  refine ⟨?_, ?_, Analyzer.failed_audit⟩
  · intro content nodes heligible hreader hcontent hnodes found suppressions
    rw [show result = _
      from Analyzer.audit_of_nodes heligible hreader hcontent hnodes]
    refine ⟨rfl, rfl, rfl, splitSuppressed_perm, standing_sublist,
      suppressed_sublist, ?_⟩
    intro s hs
    obtain ⟨hmem, happlies⟩ := applies_of_mem_suppressed hs
    exact ⟨hmem, file_of_mem_readSuppressions hmem, happlies⟩
  · intro hother
    rw [show result = _ from Analyzer.audit_of_not_analyzed hother]
    exact ⟨rfl, rfl, rfl⟩

namespace SuppressionSplitWitness

/-- Two forms that keep their tickets anywhere, the first of them accepted for a
reason. -/
def text : String :=
  "<web>\n<!-- webcfg-guard:ignore * - mobile clients -->\n<forms/>\n<forms/>\n</web>"

def tree : FileTree where
  items :=
    [(["site"], .directory),
     (["site", "Site.csproj"], .file (some "<Project/>")),
     (["site", "Web.config"], .file (some text))]
  distinct := by decide

def target : Target := ⟨⟨"/site/Web.config"⟩, ⟨"/site/Site.csproj"⟩⟩

/-- The project's own file is no configuration. -/
def stranger : Target := ⟨⟨"/site/Site.csproj"⟩, ⟨"/site/Site.csproj"⟩⟩

def analyzer : Analyzer := { rules := Builtin.rules, hasReader := true }

def nodes : List Node :=
  (readConfiguration analyzer.rules.tags text).toOption.getD []

theorem readConfiguration_text :
    readConfiguration analyzer.rules.tags text = .ok nodes :=
  eq_ok_of_isOk [] (by decide +kernel)

theorem one_form_stands :
    tree.isEligible target = true ∧ analyzer.hasReader = true ∧
      tree.readText target.config = .ok text ∧
      readConfiguration analyzer.rules.tags text = .ok nodes ∧
      ((analyzer.audit tree target).violations,
        (analyzer.audit tree target).suppressed) =
        splitSuppressed (readSuppressions "/site/Web.config" text)
          (walkNodes Builtin.rules "/site/Web.config" nodes []).1 ∧
      (analyzer.introduce tree stranger []).1 = .ineligible ∧
      (analyzer.audit tree stranger).violations = [] := by
  have heligible : tree.isEligible target = true := by decide +kernel
  have hcontent : tree.readText target.config = .ok text := by decide +kernel
  have hstranger : (analyzer.introduce tree stranger []).1 = .ineligible := by
    decide +kernel
  obtain ⟨hanalyzed, _, _⟩ := audit_conserves_violations analyzer tree target
  obtain ⟨_, hother, _⟩ := audit_conserves_violations analyzer tree stranger
  have hresult :=
    hanalyzed text nodes heligible rfl hcontent readConfiguration_text
  have hnothing := hother fun summary => by
    rw [hstranger]
    exact FileOutcome.noConfusion
  exact ⟨heligible, rfl, hcontent, readConfiguration_text, hresult.2.2.1,
    hstranger, hnothing.1⟩

example :
    let result := analyzer.audit tree target
    result.violations.map (·.span.start.line) = [4] ∧
      result.suppressed.map (·.suppression.reason) = ["mobile clients"] := by
  decide +kernel

end SuppressionSplitWitness

end WebConfigAudit
