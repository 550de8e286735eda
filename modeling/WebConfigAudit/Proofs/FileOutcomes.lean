import WebConfigAudit.Audit.Run
import WebConfigAudit.Proofs.Reports
/-!
What becomes of one file.  Four things can stand in the way of analyzing it, and
the first of them that does decides the outcome; then nothing is reported.  What
is reported on a file that is analyzed does not depend on the sink that it is
appended to.
-/

namespace WebConfigAudit

section Reports

variable {file : String} {v : Violation}

theorem ElementRule.file_of_report? {rule : ElementRule} {node : Node}
    (hv : rule.report? file node = some v) : v.file = file := by
  unfold report? at hv
  split at hv
  · cases hv
    rfl
  · contradiction

theorem CompoundRule.file_of_report? {rule : CompoundRule} {nodes : List Node}
    (hv : rule.report? file nodes = some v) : v.file = file := by
  obtain ⟨node, _, rfl⟩ := Option.map_eq_some_iff.mp hv
  rfl

/-- Every report of a walk is on the file that was walked. -/
theorem RuleSet.file_of_mem_reports {rules : RuleSet} {nodes : List Node}
    (hv : v ∈ rules.reports file nodes) : v.file = file := by
  rcases List.mem_append.mp hv with hv | hv
  · obtain ⟨node, _, hv⟩ := List.mem_flatMap.mp hv
    obtain ⟨rule, _, hv⟩ := List.mem_filterMap.mp hv
    exact ElementRule.file_of_report? hv
  · obtain ⟨rule, _, hv⟩ := List.mem_filterMap.mp hv
    exact CompoundRule.file_of_report? hv

end Reports

namespace FileTree

variable {tree : FileTree} {target : Target}

theorem isEligible_eq_true_iff :
    tree.isEligible target = true ↔ tree.eligible target = .ok true := by
  unfold isEligible
  cases tree.eligible target with
  | error e => simp
  | ok eligible => simp

theorem exists_file_of_eligible (heligible : tree.eligible target = .ok true) :
    ∃ place content, tree.find true target.config =
      .ok (place, .file content) := by
  unfold eligible at heligible
  split at heligible
  · contradiction
  · next place content hfound => exact ⟨place, content, hfound⟩
  · cases heligible

/-- A configuration that is looked at is a file, so all that can keep it from
being read is that it is no text. -/
theorem readText_of_eligible (heligible : tree.eligible target = .ok true) :
    tree.readText target.config = .error .notText ∨
      ∃ source, tree.readText target.config = .ok source := by
  -- the same look-up decides both whether the file is looked at and what is
  -- read
  obtain ⟨place, content, hfound⟩ := exists_file_of_eligible heligible
  unfold readText
  rw [hfound]
  cases content with
  | none => exact Or.inl rfl
  | some source => exact Or.inr ⟨source, rfl⟩

end FileTree

namespace Analyzer

variable {a : Analyzer} {tree : FileTree} {target : Target}

/-- What becomes of a text once the reader is in place. -/
theorem analyzeSource_cases (hreader : a.hasReader = true)
    (file source : String) :
    (∃ e, readConfiguration a.rules.tags source = .error e ∧
        ∀ sink, a.analyzeSource file source sink = (.malformed, sink)) ∨
      ∃ nodes, readConfiguration a.rules.tags source = .ok nodes ∧
        ∀ sink, a.analyzeSource file source sink =
          (.analyzed
            { elements := nodes.length
              violations := (a.rules.reports file nodes).length
              errors := a.rules.faults nodes },
            sink ++ a.rules.reports file nodes) := by
  cases hnodes : readConfiguration a.rules.tags source with
  | error e =>
      refine Or.inl ⟨e, rfl, ?_⟩
      intro sink
      simp [analyzeSource, hreader, hnodes]
  | ok nodes =>
      refine Or.inr ⟨nodes, rfl, ?_⟩
      intro sink
      simp [analyzeSource, hreader, hnodes, walkNodes_eq]

theorem analyzeSource_of_noReader (hreader : a.hasReader = false)
    (file source : String) (sink : List Violation) :
    a.analyzeSource file source sink = (.noReader, sink) := by
  simp [analyzeSource, hreader]

theorem introduce_of_text (heligible : tree.eligible target = .ok true)
    (hreader : a.hasReader = true) {source : String}
    (hcontent : tree.readText target.config = .ok source)
    (sink : List Violation) :
    a.introduce tree target sink =
      a.analyzeSource target.config.text source sink := by
  have hlooked := FileTree.isEligible_eq_true_iff.mpr heligible
  simp [introduce, hlooked, hreader, hcontent]

/-- What becomes of a file up to the analysis of its text. -/
theorem introduce_cases (a : Analyzer) (tree : FileTree) (target : Target) :
    (tree.eligible target ≠ .ok true ∧
        ∀ sink, a.introduce tree target sink = (.ineligible, sink)) ∨
      (tree.eligible target = .ok true ∧ a.hasReader = false ∧
        ∀ sink, a.introduce tree target sink = (.noReader, sink)) ∨
      (tree.eligible target = .ok true ∧ a.hasReader = true ∧
        tree.readText target.config = .error .notText ∧
        ∀ sink, a.introduce tree target sink = (.unreadable, sink)) ∨
      (tree.eligible target = .ok true ∧ a.hasReader = true ∧
        ∃ source, tree.readText target.config = .ok source ∧
          ∀ sink, a.introduce tree target sink =
            a.analyzeSource target.config.text source sink) := by
  by_cases heligible : tree.eligible target = .ok true
  · have hlooked := FileTree.isEligible_eq_true_iff.mpr heligible
    cases hreader : a.hasReader with
    | false =>
        refine Or.inr (Or.inl ⟨heligible, rfl, ?_⟩)
        intro sink
        simp [introduce, hlooked, hreader]
    | true =>
        rcases FileTree.readText_of_eligible heligible with
          hcontent | ⟨source, hcontent⟩
        · refine Or.inr (Or.inr (Or.inl ⟨heligible, rfl, hcontent, ?_⟩))
          intro sink
          simp [introduce, hlooked, hreader, hcontent]
        · exact Or.inr (Or.inr (Or.inr
            ⟨heligible, rfl, source, hcontent,
              introduce_of_text heligible hreader hcontent⟩))
  · refine Or.inl ⟨heligible, ?_⟩
    have hpassed := mt FileTree.isEligible_eq_true_iff.mp heligible
    intro sink
    simp [introduce, hpassed]

end Analyzer

/-- How many violations an outcome stands for. -/
def FileOutcome.violations : FileOutcome → Nat
  | .analyzed summary => summary.violations
  | _ => 0

/-- What is found in a file goes with its outcome: it is all in that file, and
as much as was counted, which is nothing if the file was not analyzed. -/
structure FileOutcome.Accounts (outcome : FileOutcome) (file : String)
    (found : List Violation) : Prop where
  length_eq : found.length = outcome.violations
  file_eq : ∀ v ∈ found, v.file = file

theorem FileOutcome.accounts_nil {outcome : FileOutcome}
    (hnothing : outcome.violations = 0) (file : String) :
    outcome.Accounts file [] where
  length_eq := hnothing.symm
  file_eq _ hv := nomatch hv

/-- Nothing is found in a file that was not analyzed. -/
theorem FileOutcome.Accounts.eq_nil {outcome : FileOutcome} {file : String}
    {found : List Violation} (haccounts : outcome.Accounts file found)
    (hother : ∀ summary, outcome ≠ .analyzed summary) : found = [] := by
  apply List.eq_nil_of_length_eq_zero
  rw [haccounts.length_eq]
  cases outcome with
  | analyzed summary => exact absurd rfl (hother summary)
  | ineligible => rfl
  | noReader => rfl
  | unreadable => rfl
  | malformed => rfl

namespace Analyzer

/-- A text is judged by itself: the sink has no part in the outcome and is only
appended to. -/
theorem analyzeSource_eq_append (a : Analyzer) (file source : String)
    (sink : List Violation) :
    a.analyzeSource file source sink =
      ((a.analyzeSource file source []).1,
        sink ++ (a.analyzeSource file source []).2) := by
  cases hreader : a.hasReader with
  | false => simp [analyzeSource_of_noReader hreader]
  | true =>
      rcases analyzeSource_cases hreader file source with
        ⟨e, _, hdone⟩ | ⟨nodes, _, hdone⟩
      · simp [hdone]
      · simp [hdone]

theorem accounts_analyzeSource (a : Analyzer) (file source : String) :
    (a.analyzeSource file source []).1.Accounts file
      (a.analyzeSource file source []).2 := by
  cases hreader : a.hasReader with
  | false =>
      rw [analyzeSource_of_noReader hreader]
      exact FileOutcome.accounts_nil rfl file
  | true =>
      rcases analyzeSource_cases hreader file source with
        ⟨e, _, hdone⟩ | ⟨nodes, _, hdone⟩
      · rw [hdone]
        exact FileOutcome.accounts_nil rfl file
      · rw [hdone, List.nil_append]
        exact ⟨rfl, fun _ => RuleSet.file_of_mem_reports⟩

/-- A file is judged by itself, too. -/
theorem introduce_eq_append (a : Analyzer) (tree : FileTree) (target : Target)
    (sink : List Violation) :
    a.introduce tree target sink =
      ((a.introduce tree target []).1,
        sink ++ (a.introduce tree target []).2) := by
  rcases introduce_cases a tree target with
    ⟨_, hdone⟩ | ⟨_, _, hdone⟩ | ⟨_, _, _, hdone⟩ | ⟨_, _, source, _, hdone⟩
  · simp [hdone]
  · simp [hdone]
  · simp [hdone]
  · rw [hdone, hdone]
    exact analyzeSource_eq_append a target.config.text source sink

theorem accounts_introduce (a : Analyzer) (tree : FileTree) (target : Target) :
    (a.introduce tree target []).1.Accounts target.config.text
      (a.introduce tree target []).2 := by
  rcases introduce_cases a tree target with
    ⟨_, hdone⟩ | ⟨_, _, hdone⟩ | ⟨_, _, _, hdone⟩ | ⟨_, _, source, _, hdone⟩
  · rw [hdone]
    exact FileOutcome.accounts_nil rfl target.config.text
  · rw [hdone]
    exact FileOutcome.accounts_nil rfl target.config.text
  · rw [hdone]
    exact FileOutcome.accounts_nil rfl target.config.text
  · rw [hdone]
    exact accounts_analyzeSource a target.config.text source

end Analyzer

/-- The outcome is the first that applies: the file is not looked at, there is
no reader, the file is no text, the text is no document, or the file is
analyzed. -/
structure FileOutcome.Fits (outcome : FileOutcome) (a : Analyzer)
    (tree : FileTree) (target : Target) : Prop where
  ineligible_iff : outcome = .ineligible ↔ tree.eligible target ≠ .ok true
  noReader_iff : outcome = .noReader ↔ tree.eligible target = .ok true ∧
    a.hasReader = false
  unreadable_iff : outcome = .unreadable ↔
    tree.eligible target = .ok true ∧ a.hasReader = true ∧
      tree.readText target.config = .error .notText
  malformed_iff : outcome = .malformed ↔
    tree.eligible target = .ok true ∧ a.hasReader = true ∧
      ∃ source e, tree.readText target.config = .ok source ∧
        readConfiguration a.rules.tags source = .error e
  analyzed_iff : (∃ summary, outcome = .analyzed summary) ↔
    tree.eligible target = .ok true ∧ a.hasReader = true ∧
      ∃ source nodes, tree.readText target.config = .ok source ∧
        readConfiguration a.rules.tags source = .ok nodes

namespace Analyzer

theorem introduce_fits (a : Analyzer) (tree : FileTree) (target : Target)
    (sink : List Violation) :
    (a.introduce tree target sink).1.Fits a tree target := by
  rcases introduce_cases a tree target with
    ⟨hnot, hdone⟩ | ⟨heligible, hreader, hdone⟩ | ⟨heligible, hreader,
      hcontent, hdone⟩ |
      ⟨heligible, hreader, source, hcontent, hdone⟩
  · rw [hdone]
    constructor <;> simp [hnot]
  · rw [hdone]
    constructor <;> simp [heligible, hreader]
  · rw [hdone]
    constructor <;> simp [heligible, hreader, hcontent]
  · rw [hdone]
    rcases analyzeSource_cases hreader target.config.text source with
      ⟨e, hnodes, hsource⟩ | ⟨nodes, hnodes, hsource⟩
    · rw [hsource]
      constructor <;> simp [heligible, hreader, hcontent, hnodes]
    · rw [hsource]
      constructor <;> simp [heligible, hreader, hcontent, hnodes]

/-- A file that is analyzed is judged as its text would be by itself. -/
theorem exists_text_of_analyzed {a : Analyzer} {tree : FileTree}
    {target : Target} {sink : List Violation} {summary : WalkSummary}
    (hanalyzed : (a.introduce tree target sink).1 = .analyzed summary) :
    ∃ source, tree.readText target.config = .ok source ∧
      ∀ other, a.introduce tree target other =
        a.analyzeSource target.config.text source other := by
  obtain ⟨heligible, hreader, source, _, hcontent, _⟩ :=
    (introduce_fits a tree target sink).analyzed_iff.mp ⟨summary, hanalyzed⟩
  exact ⟨source, hcontent, introduce_of_text heligible hreader hcontent⟩

end Analyzer

end WebConfigAudit
