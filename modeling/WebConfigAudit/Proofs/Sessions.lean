import WebConfigAudit.Proofs.FileOutcomes
import WebConfigAudit.Proofs.SuppressionSplit
/-!
Sessions: rules are exchanged, the reader is put in place, and files and texts
are analyzed, one after the other and into one sink.  The sink is the reports of
the analyzed ones in their order; a file that could not be analyzed leaves no
trace in it.
-/

namespace WebConfigAudit

/-- A step of a session.  Every file is looked for in the tree as it is at that
time, and new rules come with an analyzer that has no reader yet. -/
inductive SessionStep where
  | changeRules (rules : RuleSet)
  | placeReader
  | introduce (tree : FileTree) (target : Target)
  | analyze (file source : String)

/-- The analyzer after a step. -/
def SessionStep.prepare (a : Analyzer) : SessionStep → Analyzer
  | .changeRules rules => { rules := rules }
  | .placeReader => a.withReader
  | .introduce _ _ => a
  | .analyze _ _ => a

/-- What became of the file of a step, if the step has one, and the sink after
the step. -/
def Analyzer.perform (a : Analyzer) (sink : List Violation) :
    SessionStep → Option FileOutcome × List Violation
  | .changeRules _ => (none, sink)
  | .placeReader => (none, sink)
  | .introduce tree target =>
      let done := a.introduce tree target sink
      (some done.1, done.2)
  | .analyze file source =>
      let done := a.analyzeSource file source sink
      (some done.1, done.2)

/-- What a step adds to a sink: the reports on its file, if that is analyzed. -/
def Analyzer.contribution (a : Analyzer) (step : SessionStep) :
    List Violation :=
  match a.perform [] step with
  | (some (.analyzed _), found) => found
  | _ => []

namespace Analyzer

/-- What each of some steps adds, with the analyzer as it is at that time. -/
def contributions (a : Analyzer) : List SessionStep → List (List Violation)
  | [] => []
  | step :: steps => a.contribution step :: (step.prepare a).contributions steps

variable (a : Analyzer) (step : SessionStep)

theorem perform_eq_append (sink : List Violation) :
    a.perform sink step =
      ((a.perform [] step).1, sink ++ (a.perform [] step).2) := by
  cases step with
  | changeRules rules => simp [perform]
  | placeReader => simp [perform]
  | introduce tree target =>
      simp only [perform, introduce_eq_append a tree target sink]
  | analyze file source =>
      simp only [perform, analyzeSource_eq_append a file source sink]

variable {a step}

theorem contribution_of_accounts {outcome : FileOutcome} {file : String}
    {found : List Violation} (hdone : a.perform [] step = (some outcome, found))
    (haccounts : outcome.Accounts file found) :
    a.contribution step = found := by
  unfold contribution
  rw [hdone]
  split
  · next hanalyzed =>
      cases hanalyzed
      rfl
  · next hother =>
      -- nothing counts as contributed here, and nothing was found either
      apply (haccounts.eq_nil _).symm
      rintro summary rfl
      exact hother summary found rfl

/-- A step adds as much as its outcome stands for, and nothing if no file was
analyzed. -/
theorem perform_nil (a : Analyzer) (step : SessionStep) :
    (a.perform [] step).2 = a.contribution step ∧
      (a.contribution step).length =
        (a.perform [] step).1.elim 0 FileOutcome.violations := by
  cases step with
  | changeRules rules => exact ⟨rfl, rfl⟩
  | placeReader => exact ⟨rfl, rfl⟩
  | introduce tree target =>
      have haccounts := accounts_introduce a tree target
      rw [contribution_of_accounts rfl haccounts]
      exact ⟨rfl, haccounts.length_eq⟩
  | analyze file source =>
      have haccounts := accounts_analyzeSource a file source
      rw [contribution_of_accounts rfl haccounts]
      exact ⟨rfl, haccounts.length_eq⟩

/-- What one step does to any sink. -/
theorem perform_eq (a : Analyzer) (sink : List Violation) (step : SessionStep) :
    a.perform sink step =
      ((a.perform [] step).1, sink ++ a.contribution step) := by
  rw [perform_eq_append, (perform_nil a step).1]

end Analyzer

/-- An analyzer at work and what was reported so far. -/
structure SessionState where
  analyzer : Analyzer
  sink : List Violation := []

namespace SessionState

/-- One step: what became of its file, and the state after it. -/
def next (state : SessionState) (step : SessionStep) :
    Option FileOutcome × SessionState :=
  let done := state.analyzer.perform state.sink step
  (done.1, { analyzer := step.prepare state.analyzer, sink := done.2 })

/-- Some steps in order: what became of their files, and the state after the
last of them. -/
def run (state : SessionState) :
    List SessionStep → List (Option FileOutcome) × SessionState
  | [] => ([], state)
  | step :: steps =>
      let done := state.next step
      let rest := done.2.run steps
      (done.1 :: rest.1, rest.2)

theorem run_append (state : SessionState) (steps more : List SessionStep) :
    state.run (steps ++ more) =
      ((state.run steps).1 ++ ((state.run steps).2.run more).1,
        ((state.run steps).2.run more).2) := by
  induction steps generalizing state with
  | nil => rfl
  | cons step steps ih => simp only [List.cons_append, run, ih]

/-- A session adds to the sink what each of its steps adds. -/
theorem sink_run (state : SessionState) (steps : List SessionStep) :
    (state.run steps).2.sink =
      state.sink ++ (state.analyzer.contributions steps).flatten := by
  -- for any state, since each step leaves another sink and may leave another
  -- analyzer
  induction steps generalizing state with
  | nil => simp [run, Analyzer.contributions]
  | cons step steps ih =>
      simp only [run, ih, next,
        Analyzer.perform_eq state.analyzer state.sink step,
        Analyzer.contributions, List.flatten_cons, List.append_assoc]

/-- Each of the outcomes stands for as much as its step adds. -/
theorem length_contributions (state : SessionState) (steps : List SessionStep) :
    (state.analyzer.contributions steps).map List.length =
      (state.run steps).1.map fun outcome =>
        outcome.elim 0 FileOutcome.violations := by
  induction steps generalizing state with
  | nil => rfl
  | cons step steps ih =>
      simp only [run, Analyzer.contributions, List.map_cons, next,
        Analyzer.perform_eq state.analyzer state.sink step,
        (Analyzer.perform_nil state.analyzer step).2, ← ih]

theorem sink_prefix (state : SessionState) (steps more : List SessionStep) :
    (state.run steps).2.sink <+: (state.run (steps ++ more)).2.sink := by
  rw [run_append]
  exact ⟨_, (sink_run (state.run steps).2 more).symm⟩

end SessionState

/-- What is in the sink comes from the files that were analyzed.  The outcome of
a file is the first of the five that applies.  A file that is not analyzed
leaves the sink as it was; one that is analyzed adds as many violations as its
outcome counts, all of them in that file, and the same ones as its text would by
itself.  Over a session the sink is only appended to: it is what it was before,
and then what each step with an analyzed file added. -/
theorem sink_collects_analyzed_files :
    (∀ (a : Analyzer) (tree : FileTree) (target : Target)
      (sink : List Violation),
      let done := a.introduce tree target sink
      done.1.Fits a tree target ∧
        ((∀ summary, done.1 ≠ .analyzed summary) → done.2 = sink) ∧
        ∀ summary, done.1 = .analyzed summary →
          ∃ source found, tree.readText target.config = .ok source ∧
            done.2 = sink ++ found ∧ found.length = summary.violations ∧
            (∀ v ∈ found, v.file = target.config.text) ∧
            ∀ other, a.analyzeSource target.config.text source other =
              (.analyzed summary, other ++ found)) ∧
      ∀ (state : SessionState) (steps more : List SessionStep),
        let added := state.analyzer.contributions steps
        (state.run steps).2.sink = state.sink ++ added.flatten ∧
          added.map List.length =
            ((state.run steps).1.map fun outcome =>
              outcome.elim 0 FileOutcome.violations) ∧
          (state.run steps).2.sink <+: (state.run (steps ++ more)).2.sink := by
  constructor
  · intro a tree target sink done
    -- all that is said of the sink is said first of what the file adds to an
    -- empty one
    have hdone : done = _ := Analyzer.introduce_eq_append a tree target sink
    have haccounts := Analyzer.accounts_introduce a tree target
    refine ⟨Analyzer.introduce_fits a tree target sink, ?_, ?_⟩
    · intro hother
      rw [hdone] at hother ⊢
      rw [haccounts.eq_nil hother, List.append_nil]
    · intro summary hanalyzed
      obtain ⟨source, hcontent, hsame⟩ :=
        Analyzer.exists_text_of_analyzed hanalyzed
      rw [hdone] at hanalyzed
      refine ⟨source, (a.introduce tree target []).2, hcontent,
        congrArg Prod.snd hdone, ?_, haccounts.file_eq, ?_⟩
      · rw [haccounts.length_eq, show (a.introduce tree target []).1 = _
          from hanalyzed]
        rfl
      · intro other
        rw [← hsame, Analyzer.introduce_eq_append,
          show (a.introduce tree target []).1 = _ from hanalyzed]
  · intro state steps more added
    exact ⟨state.sink_run steps, state.length_contributions steps,
      state.sink_prefix steps more⟩

namespace SessionsWitness

open SuppressionSplitWitness

/-- The configuration comes too early at first.  Later the project's own file is
passed over, the configuration is analyzed, a text that is no document is
refused, and rules are taken away. -/
def steps : List SessionStep :=
  [.introduce tree target, .placeReader, .introduce tree stranger,
    .introduce tree target, .analyze "draft" "<web>", .changeRules ⟨[], []⟩,
    .introduce tree target, .placeReader, .introduce tree target]

def start : SessionState where
  analyzer := { rules := Builtin.rules }

def earlier : List Violation :=
  [⟨"other", "AvoidTracing", Span.nowhere, "found before"⟩]

theorem only_configuration_reaches_sink :
    (∀ summary, (analyzer.introduce tree stranger earlier).1 ≠
      .analyzed summary) ∧
      (analyzer.introduce tree stranger earlier).2 = earlier ∧
      (analyzer.introduce tree target earlier).1 = .analyzed ⟨2, 2, 0⟩ ∧
      (∃ found, (analyzer.introduce tree target earlier).2 = earlier ++ found ∧
        found.length = 2) ∧
      (start.run steps).2.sink =
        start.sink ++ (start.analyzer.contributions steps).flatten := by
  obtain ⟨hfiles, hsessions⟩ := sink_collects_analyzed_files
  have hstranger : (analyzer.introduce tree stranger earlier).1 =
      .ineligible := by decide +kernel
  have hother : ∀ summary, (analyzer.introduce tree stranger earlier).1 ≠
      .analyzed summary := by
    rw [hstranger]
    exact fun _ => FileOutcome.noConfusion
  have hanalyzed : (analyzer.introduce tree target earlier).1 =
      .analyzed ⟨2, 2, 0⟩ := by
    decide +kernel
  obtain ⟨_, hkept, _⟩ := hfiles analyzer tree stranger earlier
  obtain ⟨_, _, hadded⟩ := hfiles analyzer tree target earlier
  obtain ⟨_, found, _, hsink, hlength, _⟩ := hadded ⟨2, 2, 0⟩ hanalyzed
  obtain ⟨hrun, _⟩ := hsessions start steps []
  exact ⟨hother, hkept hother, hanalyzed, ⟨found, hsink, hlength⟩, hrun⟩

example :
    (start.run steps).1 =
      [some .noReader, none, some .ineligible, some (.analyzed ⟨2, 2, 0⟩),
        some .malformed, none, some .noReader, none,
        some (.analyzed ⟨0, 0, 0⟩)] := by
  decide +kernel

end SessionsWitness

end WebConfigAudit
