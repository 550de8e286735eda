import WebConfigAudit.Proofs.AgreeingReports
import WebConfigAudit.Proofs.Fallible
/-!
What a lint writes for machines.  A lint that ends well has searched for
configurations; if it has come to one, it writes one document about its result,
and if it has come to none, nothing at all.
-/

namespace WebConfigAudit

/-- A lint has its rules, can start, and comes to these configurations, which
may be none. -/
structure FileTree.Searches (tree : FileTree) (arguments : LintArguments)
    (loaded : LoadedRules) (base : Path) (targets : List Target) : Prop where
  rules : tree.loadRules arguments.contract = .ok loaded
  start : tree.canonical arguments.path = .ok base
  found : tree.targets loaded.contract base = .ok targets

/-- A document of a format for machines describes a result: it has the members
of the format's report on the result, and it lists the violations that stand.
There is none in the format for a terminal. -/
def ReportFormat.Documents (format : ReportFormat) (arguments : LintArguments)
    (loaded : LoadedRules) (base : Path) (r : AuditResult) (document : Json) :
    Prop :=
  match format with
  | .json =>
      document = (ReportDocument.of arguments.path.text loaded.source
        r).toJson ∧
        reportFindings? document = some (r.violations.map Violation.finding)
  | .sarif =>
      document = (SarifLog.of base r loaded.rules).toJson ∧
        logFindings? document =
          some (r.violations.map fun v => v.finding.raised)
  | .pretty => False

/-- What is said when there is no configuration to look at. -/
def nothingFound : String :=
  "Warning: no web.config files belonging to a project were found\n"

section Outcomes

variable {tree : FileTree} {arguments : LintArguments} {loaded : LoadedRules}
  {base : Path} {targets : List Target} {format : ReportFormat} {color : Bool}

theorem FileTree.Searches.findsTargets
    (hsearch : tree.Searches arguments loaded base targets)
    (hsome : targets ≠ []) :
    tree.FindsTargets arguments.path arguments.contract loaded base targets :=
  ⟨hsearch.rules, hsearch.start, hsearch.found, hsome⟩

theorem mapError_eq_ok_iff {α ε δ : Type} {x : Except ε α} {f : ε → δ} {a : α} :
    x.mapError f = .ok a ↔ x = .ok a := by
  cases x with
  | error e => simp [Except.mapError]
  | ok b => simp [Except.mapError]

/-- A lint that takes place has searched. -/
theorem exists_searches_of_lint {lint : Lint}
    (hlint : tree.lint arguments = .ok lint) :
    ∃ loaded base targets, tree.Searches arguments loaded base targets := by
  unfold FileTree.lint at hlint
  split at hlint
  · contradiction
  · simp only [bind_eq_ok_iff, mapError_eq_ok_iff] at hlint
    obtain ⟨loaded, hrules, base, hstart, targets, hfound, _⟩ := hlint
    exact ⟨loaded, base, targets, hrules, hstart, hfound⟩

/-- A lint that ends with zero or one has searched. -/
theorem exists_searches_of_exitCode
    (hends : (runLint tree arguments color).exitCode = 0 ∨
      (runLint tree arguments color).exitCode = 1) :
    ∃ loaded base targets, tree.Searches arguments loaded base targets := by
  cases hlint : tree.lint arguments with
  | error e =>
      have hcode : (runLint tree arguments color).exitCode = 2 := by
        simp only [runLint, hlint]
        rfl
      omega
  | ok lint => exact exists_searches_of_lint hlint

/-- A lint that comes to nothing warns, and writes no report. -/
theorem runLint_of_nothing
    (hformat : ReportFormat.ofName? arguments.format = some format)
    (hsearch : tree.Searches arguments loaded base []) :
    runLint tree arguments color = { errors := nothingFound } := by
  have hlint : tree.lint arguments = .ok ⟨format, base, loaded, none⟩ := by
    simp only [FileTree.lint, hformat, hsearch.rules, hsearch.start,
      hsearch.found, Except.mapError, bind, Except.bind]
    rfl
  simp only [runLint, hlint]
  rfl

/-- The report of a lint in a format for machines is read as one document on its
result. -/
theorem exists_document (hmachine : format ≠ .pretty) (r : AuditResult) :
    ∃ document,
      Json.read (Lint.report ⟨format, base, loaded, some r⟩ arguments color r) =
        some document ∧
        format.Documents arguments loaded base r document := by
  cases format with
  | pretty => exact absurd rfl hmachine
  | json => exact ⟨_, read_jsonReport .., rfl, reportFindings?_toJson ..⟩
  | sarif => exact ⟨_, read_sarifReport .., rfl, logFindings?_toJson ..⟩

end Outcomes

/-- A lint in a format for machines ends with zero or one just if it has
searched for configurations.  If it has come to one, its output is one document
that describes the result, and the exit code is one just if a violation stands.
If it has come to none, it ends with zero, and its output is no document. -/
theorem lint_documents_found_targets (tree : FileTree)
    (arguments : LintArguments) (color : Bool) {format : ReportFormat}
    (hformat : ReportFormat.ofName? arguments.format = some format)
    (hmachine : format ≠ .pretty) :
    let outcome := runLint tree arguments color
    (outcome.exitCode = 0 ∨ outcome.exitCode = 1 ↔
        ∃ loaded base targets, tree.Searches arguments loaded base targets) ∧
      ∀ loaded base targets, tree.Searches arguments loaded base targets →
        let result := loaded.audit tree targets
        (targets ≠ [] →
          (outcome.exitCode = if result.violations = [] then 0 else 1) ∧
            ∃ document, Json.read outcome.output = some document ∧
              format.Documents arguments loaded base result document) ∧
        (targets = [] →
          outcome = { errors := nothingFound } ∧
          Json.read outcome.output = none) := by
  intro outcome
  have hresult : ∀ loaded base targets,
      tree.Searches arguments loaded base targets →
      let result := loaded.audit tree targets
      (targets ≠ [] →
        (outcome.exitCode = if result.violations = [] then 0 else 1) ∧
          ∃ document, Json.read outcome.output = some document ∧
            format.Documents arguments loaded base result document) ∧
      (targets = [] →
        outcome = { errors := nothingFound } ∧
        Json.read outcome.output = none) := by
    intro loaded base targets hsearch result
    constructor
    · intro hsome
      have houtcome : outcome = _ :=
        runLint_of_findsTargets arguments hformat
          (hsearch.findsTargets hsome) color
      constructor
      · have hcode := congrArg CommandOutcome.exitCode houtcome
        simpa [AuditResult.hasViolations] using hcode
      · simp only [houtcome]
        exact exists_document hmachine result
    · intro hnone
      subst hnone
      have houtcome : outcome = { errors := nothingFound } :=
        runLint_of_nothing hformat hsearch
      refine ⟨houtcome, ?_⟩
      simp only [houtcome]
      rfl
  refine ⟨⟨exists_searches_of_exitCode, ?_⟩, hresult⟩
  rintro ⟨loaded, base, targets, hsearch⟩
  obtain ⟨hfound, hnothing⟩ := hresult loaded base targets hsearch
  by_cases hnone : targets = []
  · exact Or.inl (congrArg CommandOutcome.exitCode (hnothing hnone).1)
  · have hcode := (hfound hnone).1
    split at hcode
    · exact Or.inl hcode
    · exact Or.inr hcode

namespace WrittenDocumentWitness

/-- A site with its project, and no configuration. -/
def unconfigured : FileTree where
  items := [(["site"], .directory),
    (["site", "Site.csproj"], .file (some "<Project/>"))]
  distinct := by decide

/-- The site with a configuration in a directory below that of the project. -/
def nested : FileTree where
  items :=
    [(["site"], .directory),
     (["site", "Site.csproj"], .file (some "<Project/>")),
     (["site", "Views"], .directory),
     (["site", "Views", "web.config"], .file (some "<configuration/>"))]
  distinct := by decide

def arguments (format : String) : LintArguments :=
  { path := ⟨"site"⟩, format := format }

def targets : List Target :=
  [⟨⟨"/site/Views/web.config"⟩, ⟨"/site/Site.csproj"⟩⟩]

theorem searches_nested :
    nested.Searches (arguments "json") .builtin ⟨"/site"⟩ targets where
  rules := by decide +kernel
  start := by decide +kernel
  found := by decide +kernel

/-- No file is looked at, and that is what the document says. -/
theorem nested_site_is_documented :
    nested.Searches (arguments "json") .builtin ⟨"/site"⟩ targets ∧
      targets ≠ [] ∧
      (runLint nested (arguments "json") false).exitCode = 0 ∧
      ∃ document, Json.read (runLint nested (arguments "json") false).output =
        some document ∧
        document.get? "files_scanned" = some (.natural 0) ∧
        reportFindings? document = some [] := by
  have hsome : targets ≠ [] := List.cons_ne_nil _ _
  have hresult : LoadedRules.builtin.audit nested targets = {} := by
    decide +kernel
  have hformat : ReportFormat.ofName? (arguments "json").format =
      some .json := rfl
  obtain ⟨_, hlint⟩ :=
    lint_documents_found_targets nested (arguments "json") false hformat nofun
  obtain ⟨hcode, document, hread, hmembers, hlisted⟩ :=
    (hlint .builtin ⟨"/site"⟩ targets searches_nested).1 hsome
  rw [hresult] at hcode hmembers hlisted
  refine ⟨searches_nested, hsome, hcode, document, hread, ?_, hlisted⟩
  rw [hmembers]
  rfl

theorem searches_unconfigured (format : String) :
    unconfigured.Searches (arguments format) .builtin ⟨"/site"⟩ [] where
  rules := by
    change unconfigured.loadRules none = _
    decide +kernel
  start := by
    change unconfigured.canonical ⟨"site"⟩ = _
    decide +kernel
  found := by decide +kernel

theorem runLint_unconfigured {format : String} {known : ReportFormat}
    (hformat : ReportFormat.ofName? format = some known) :
    runLint unconfigured (arguments format) false =
      { errors := nothingFound } :=
  runLint_of_nothing hformat (searches_unconfigured format)

/-- Without a configuration, a lint ends well and writes no document. -/
theorem unconfigured_site_is_not_documented :
    (runLint unconfigured (arguments "json") false).exitCode = 0 ∧
      Json.read (runLint unconfigured (arguments "json") false).output = none ∧
      (runLint unconfigured (arguments "sarif") false).exitCode = 0 ∧
      Json.read (runLint unconfigured (arguments "sarif") false).output =
        none := by
  have hjson : ReportFormat.ofName? "json" = some .json := rfl
  have hsarif : ReportFormat.ofName? "sarif" = some .sarif := rfl
  rw [runLint_unconfigured hjson, runLint_unconfigured hsarif]
  exact ⟨rfl, rfl, rfl, rfl⟩

end WrittenDocumentWitness

end WebConfigAudit
