import Mathlib.Data.List.Infix
import WebConfigAudit.CommandLine.Lint
import WebConfigAudit.Proofs.DecimalDigits
import WebConfigAudit.Proofs.LosslessReport
import WebConfigAudit.Proofs.ViolatedRules
/-!
The reports on a result agree with each other and with the exit code.  What they
list is read off their members, as a tool that takes in one of them would do it.
-/

namespace WebConfigAudit

/-! Reading findings off a report -/

namespace Json

/-- What a chain of members leads to. -/
def at? : List String → Json → Option Json
  | [], json => some json
  | key :: keys, json => (json.get? key).bind (at? keys)

/-- The only entry of an array. -/
def only? : Json → Option Json
  | .array [entry] => some entry
  | _ => none

/-- The range that four members give, its start first. -/
def range? (startLine startColumn endLine endColumn : String) (json : Json) :
    Option Span := do
  let startLine ← (json.get? startLine).bind natural?
  let startColumn ← (json.get? startColumn).bind natural?
  let endLine ← (json.get? endLine).bind natural?
  let endColumn ← (json.get? endColumn).bind natural?
  return ⟨⟨startLine, startColumn⟩, ⟨endLine, endColumn⟩⟩

end Json

open Json (at? only? range?)

/-- What a list says of a violation: its rule, the message, and where in the
source it is. -/
structure Finding where
  rule : String
  message : String
  range : Span
deriving DecidableEq, Repr

/-- What there is to say of a violation. -/
def Violation.finding (v : Violation) : Finding := ⟨v.rule, v.message, v.span⟩

/-- The number with zero raised to one. -/
def atLeastOne (n : Nat) : Nat :=
  if n = 0 then 1 else n

/-- The finding with the zeros of its range raised to one. -/
def Finding.raised (f : Finding) : Finding :=
  { f with
    range :=
      ⟨⟨atLeastOne f.range.start.line, atLeastOne f.range.start.column⟩,
        ⟨atLeastOne f.range.stop.line, atLeastOne f.range.stop.column⟩⟩ }

/-- The finding in an entry of the JSON report. -/
def reportFinding? (entry : Json) : Option Finding := do
  let rule ← (entry.get? "rule").bind Json.string?
  let message ← (entry.get? "message").bind Json.string?
  let range ← range? "line" "column" "end_line" "end_column" entry
  return ⟨rule, message, range⟩

/-- The findings that the JSON report lists. -/
def reportFindings? (report : Json) : Option (List Finding) :=
  (report.get? "violations").bind (Record.listOf reportFinding?)

/-- How many entries of suppressed violations there are in the JSON report; none
if the list is left out. -/
def countSuppressed (report : Json) : Nat :=
  (((report.get? "suppressed").bind Json.array?).getD []).length

/-- The finding in a result of the log. -/
def logFinding? (result : Json) : Option Finding := do
  let rule ← (result.get? "ruleId").bind Json.string?
  let message ← (at? ["message", "text"] result).bind Json.string?
  let location ← (result.get? "locations").bind only?
  let region ← at? ["physicalLocation", "region"] location
  let range ← range? "startLine" "startColumn" "endLine" "endColumn" region
  return ⟨rule, message, range⟩

/-- The only run of the log. -/
def logRun? (log : Json) : Option Json :=
  (log.get? "runs").bind only?

/-- The findings that the log lists. -/
def logFindings? (log : Json) : Option (List Finding) := do
  let results ← (← logRun? log).get? "results"
  Record.listOf logFinding? results

/-- The names of the rules that the log describes. -/
def logRuleIds? (log : Json) : Option (List String) := do
  let rules ← at? ["tool", "driver", "rules"] (← logRun? log)
  Record.listOf (fun rule => (rule.get? "id").bind Json.string?) rules

/-- Both reports on a result list its violations, in their order and with the
same words and places, except that the log counts lines and columns from one.
The log describes the rules that its results name, once each and in rising
order.  The suppressed entries are counted right, and the result is said to pass
just if no violation stands. -/
structure ReportsAgree (report log : Json) (r : AuditResult) : Prop where
  listed : reportFindings? report = some (r.violations.map Violation.finding)
  logged : logFindings? log = some (r.violations.map fun v => v.finding.raised)
  rules : ∃ ids, logRuleIds? log = some ids ∧ ids.Pairwise (· < ·) ∧
    ∀ id, id ∈ ids ↔ ∃ found, logFindings? log = some found ∧
    id ∈ found.map Finding.rule
  suppressed : report.get? "suppressed_count" =
      some (.natural (countSuppressed report)) ∧
    countSuppressed report = r.suppressed.length
  passed : ∃ passed, report.get? "passed" = some (.bool passed) ∧
    (passed = true ↔ r.violations = [])

/-! What the reports list -/

theorem atLeastOne_eq_max (n : Nat) : atLeastOne n = max n 1 := by
  unfold atLeastOne
  split <;> omega

theorem reportFinding?_toJson (v : Violation) :
    reportFinding? (ReportedViolation.of v).toJson = some v.finding := by
  simp [reportFinding?, range?, ReportedViolation.toJson, ReportedViolation.of,
    Json.get?, Json.string?, Json.natural?, Violation.finding]

theorem ReportDocument.get?_toJson (d : ReportDocument) :
    d.toJson.get? "passed" = some (.bool d.passed) ∧
      d.toJson.get? "violations" =
        some (.array (d.violations.map ReportedViolation.toJson)) ∧
      d.toJson.get? "suppressed" =
        listedUnlessEmpty ReportedPair.toJson d.suppressed ∧
      d.toJson.get? "suppressed_count" = some (.natural d.suppressedCount) := by
  have hmembers := d.members?_toJson
  change some (List.map (fun name => d.toJson.get? name) _) = _ at hmembers
  simp only [List.map_cons, Option.some.injEq, List.cons.injEq] at hmembers
  obtain ⟨_, _, _, hpassed, _, _, hviolations, hsuppressed, hcount, _⟩ :=
    hmembers
  exact ⟨hpassed, hviolations, hsuppressed, hcount⟩

theorem reportFindings?_toJson (path contract : String) (r : AuditResult) :
    reportFindings? (ReportDocument.of path contract r).toJson =
      some (r.violations.map Violation.finding) := by
  rw [reportFindings?, (ReportDocument.get?_toJson _).2.1, Option.bind_some,
    ReportDocument.of, List.map_map]
  exact Record.listOf_map_eq fun v _ => reportFinding?_toJson v

theorem countSuppressed_toJson (path contract : String) (r : AuditResult) :
    countSuppressed (ReportDocument.of path contract r).toJson =
      r.suppressed.length := by
  rw [countSuppressed, (ReportDocument.get?_toJson _).2.2.1, ReportDocument.of]
  cases r.suppressed with
  | nil => rfl
  | cons p ps => simp [listedUnlessEmpty, Json.array?]

theorem SarifRule.isPlain_toJson (rule : SarifRule) : rule.toJson.IsPlain := by
  simp [toJson, sarifMessage]

theorem SarifResult.isPlain_toJson (result : SarifResult) :
    result.toJson.IsPlain := by
  simp [toJson, sarifMessage, sarifRegion]

theorem SarifLog.isPlain_toJson (log : SarifLog) : log.toJson.IsPlain := by
  simp [toJson, SarifRule.isPlain_toJson, SarifResult.isPlain_toJson]

theorem read_sarifReport (base : Path) (r : AuditResult) (rules : RuleSet) :
    Json.read (sarifReport base r rules) =
      some (SarifLog.of base r rules).toJson :=
  Json.read_pretty_append (SarifLog.isPlain_toJson _)
    (by simp [Json.IsGap]; rfl)

theorem logRun?_toJson (log : SarifLog) :
    ∃ run, logRun? log.toJson = some run ∧
      run.get? "results" = some (.array (log.results.map SarifResult.toJson)) ∧
      at? ["tool", "driver", "rules"] run =
        some (.array (log.rules.map SarifRule.toJson)) := by
  refine ⟨_, rfl, ?_, ?_⟩
  · simp [Json.get?]
  · simp [at?, Json.get?]

theorem logFinding?_toJson (result : SarifResult) :
    logFinding? result.toJson =
      some ⟨result.rule, result.message, result.region⟩ := by
  simp [logFinding?, at?, only?, range?, SarifResult.toJson, sarifMessage,
    sarifRegion, Json.get?, Json.string?, Json.natural?]

theorem logFindings?_toJson (base : Path) (r : AuditResult) (rules : RuleSet) :
    logFindings? (SarifLog.of base r rules).toJson =
      some (r.violations.map fun v => v.finding.raised) := by
  obtain ⟨run, hrun, hresults, _⟩ := logRun?_toJson (SarifLog.of base r rules)
  simp only [logFindings?, hrun, hresults, Option.bind_eq_bind,
    Option.bind_some]
  rw [Record.listOf_map_eq fun result _ => logFinding?_toJson result]
  simp [SarifLog.of, Violation.finding, Finding.raised, positionFromOne,
    atLeastOne_eq_max]

theorem logRuleIds?_toJson (base : Path) (r : AuditResult) (rules : RuleSet) :
    logRuleIds? (SarifLog.of base r rules).toJson =
      some (sarifRuleIds r.violations) := by
  obtain ⟨run, hrun, _, hrules⟩ := logRun?_toJson (SarifLog.of base r rules)
  have hid : ∀ rule : SarifRule, (rule.toJson.get? "id").bind Json.string? =
      some rule.id := by
    intro rule
    simp [SarifRule.toJson, Json.get?, Json.string?]
  simp only [logRuleIds?, hrun, hrules, Option.bind_eq_bind, Option.bind_some]
  rw [Record.listOf_map_eq fun rule _ => hid rule]
  simp [SarifLog.of, Function.comp_def]

theorem reportsAgree (path contract : String) (base : Path) (r : AuditResult)
    (rules : RuleSet) :
    ReportsAgree (ReportDocument.of path contract r).toJson
      (SarifLog.of base r rules).toJson r where
  listed := reportFindings?_toJson path contract r
  logged := logFindings?_toJson base r rules
  rules := by
    refine ⟨_, logRuleIds?_toJson base r rules, pairwise_sarifRuleIds _,
      fun id => ?_⟩
    rw [logFindings?_toJson, mem_sarifRuleIds]
    simp [Violation.finding, Finding.raised]
  suppressed := by
    rw [countSuppressed_toJson]
    exact ⟨(ReportDocument.get?_toJson _).2.2.2, rfl⟩
  passed := by
    refine ⟨_, (ReportDocument.get?_toJson _).1, ?_⟩
    simp [ReportDocument.of, AuditResult.hasViolations]

/-! The verdict on a terminal -/

theorem toList_renderPieces (color : Bool) (pieces : List Piece) :
    (renderPieces color pieces).toList = pieces.flatMap (Piece.render color) :=
  String.toList_ofList

/-- The sequences of a terminal have no capital letters. -/
theorem all_not_isUpper_on (style : Style) :
    (style.on.all fun c => !c.isUpper) = true := by
  cases style <;> decide

theorem mem_of_mem_resume {style : Style} {skip : Nat} {cs : List Char}
    {c : Char} (hc : c ∈ resume style skip cs) : c ∈ cs ∨ c ∈ style.on := by
  fun_induction resume style skip cs with
  | case1 => simp at hc
  | case2 d rest hoff ih => grind
  | case3 d rest hoff ih => grind
  | case4 d rest ih => grind
  | case5 skip d rest ih => grind

/-- A capital letter in a piece as it is shown is one of its text. -/
theorem mem_text_of_mem_render {piece : Piece} {color : Bool} {c : Char}
    (hupper : c.isUpper = true) (hc : c ∈ piece.render color) :
    c ∈ piece.text.toList := by
  have hpad : ∀ {cs : List Char}, c ∈ padTo piece.width cs → c ∈ cs := by
    intro cs hpadded
    rw [padTo, List.mem_append] at hpadded
    refine hpadded.resolve_right fun hblank => ?_
    rw [List.eq_of_mem_replicate hblank] at hupper
    contradiction
  have hother : ∀ {cs : List Char}, (cs.all fun c => !c.isUpper) = true →
      c ∉ cs := by
    intro cs hlower hmem
    have hc := List.all_eq_true.mp hlower c hmem
    rw [hupper] at hc
    contradiction
  have hon : c ∉ piece.style.on := hother (all_not_isUpper_on _)
  have hoff : c ∉ styleOff := hother (by decide)
  rw [Piece.render] at hc
  split at hc
  · simp only [List.mem_append, hon, hoff, false_or, or_false] at hc
    exact (mem_of_mem_resume (hpad hc)).resolve_right hon
  · exact hpad hc

theorem not_mem_summary {r : AuditResult} (hpasses : ¬ r.hasViolations = true) :
    ∀ piece ∈ Pretty.summary r, 'F' ∉ piece.text.toList := by
  have hnumeral := Text.not_mem_decimal (c := 'F') rfl
  have hplural : ∀ n, 'F' ∉ (Pretty.plural n).toList := by
    intro n
    unfold Pretty.plural
    split <;> decide
  cases hsuppressed : r.suppressed.isEmpty with
  | true =>
      simp [Pretty.summary, Pretty.plain, Pretty.styled, Pretty.lineEnd,
        hpasses, hsuppressed, hnumeral, hplural]
  | false =>
      simp [Pretty.summary, Pretty.plain, Pretty.styled, Pretty.lineEnd,
        hpasses, hsuppressed, hnumeral, hplural]

/-- The line that tells whether a result passes says that it fails just if a
violation stands. -/
theorem says_fail_iff (color : Bool) (r : AuditResult) :
    "FAIL".toList <:+: (renderPieces color (Pretty.summary r)).toList ↔
      r.hasViolations = true := by
  rw [toList_renderPieces]
  constructor
  · intro hfail
    by_contra hpasses
    have hletter : 'F' ∈ "FAIL".toList := by decide
    obtain ⟨piece, hpiece, hshown⟩ := List.mem_flatMap.mp (hfail.subset hletter)
    exact not_mem_summary hpasses piece hpiece
      (mem_text_of_mem_render (by decide) hshown)
  · intro hfails
    have hpiece : Pretty.styled .red "✗ FAIL" ∈ Pretty.summary r := by
      simp [Pretty.summary, hfails]
    have hword :
        "FAIL".toList <:+: (Pretty.styled .red "✗ FAIL").render color := by
      cases color <;> decide +kernel
    exact hword.trans (List.infix_of_mem_flatten (List.mem_map_of_mem hpiece))

/-! A lint that finds something to look at -/

/-- Under the contract that is asked for, there are configurations to look at
under a path. -/
structure FileTree.FindsTargets (tree : FileTree) (path : Path)
    (asked : Option Path) (loaded : LoadedRules) (base : Path)
    (targets : List Target) : Prop where
  rules : tree.loadRules asked = .ok loaded
  start : tree.canonical path = .ok base
  found : tree.targets loaded.contract base = .ok targets
  nonempty : targets ≠ []

/-- The result of looking at some configurations. -/
def LoadedRules.audit (loaded : LoadedRules) (tree : FileTree)
    (targets : List Target) : AuditResult :=
  (Analyzer.mk loaded.rules false).withReader.run tree targets

theorem ReportFormat.exists_ofName? {name : String}
    (hname : name ∈ ["pretty", "json", "sarif"]) :
    ∃ format, ofName? name = some format := by
  simp only [List.mem_cons, List.not_mem_nil, or_false] at hname
  rcases hname with rfl | rfl | rfl
  · exact ⟨.pretty, rfl⟩
  · exact ⟨.json, rfl⟩
  · exact ⟨.sarif, rfl⟩

section Lint

variable {tree : FileTree} {loaded : LoadedRules} {base : Path}
  {targets : List Target}

theorem lint_of_findsTargets {arguments : LintArguments} {format : ReportFormat}
    (hformat : ReportFormat.ofName? arguments.format = some format)
    (hfinds : tree.FindsTargets arguments.path arguments.contract loaded base
      targets) :
    tree.lint arguments =
      .ok ⟨format, base, loaded, some (loaded.audit tree targets)⟩ := by
  have hsome : targets.isEmpty = false :=
    List.isEmpty_eq_false_iff.mpr hfinds.nonempty
  rw [FileTree.lint, hformat]
  simp only [hfinds.rules, hfinds.start, Except.mapError, bind, Except.bind,
    hfinds.found, hsome]
  rfl

theorem runLint_of_findsTargets (arguments : LintArguments)
    {format : ReportFormat}
    (hformat : ReportFormat.ofName? arguments.format = some format)
    (hfinds : tree.FindsTargets arguments.path arguments.contract loaded
      base targets)
    (color : Bool) :
    runLint tree arguments color =
      { exitCode := if (loaded.audit tree targets).hasViolations then 1 else 0
        output := Lint.report ⟨format, base, loaded,
          some (loaded.audit tree targets)⟩ arguments
          color (loaded.audit tree targets) } := by
  rw [runLint, lint_of_findsTargets hformat hfinds]
  rfl

end Lint

/-- The report for the terminal begins with the lines above the result and the
line with the verdict. -/
theorem exists_prettyReport_eq (color : Bool) (path contract : String)
    (r : AuditResult) (details : Bool) :
    ∃ rest, prettyReport color path contract r details =
      renderPieces color (Pretty.header path contract) ++
        renderPieces color (Pretty.summary r) ++ rest := by
  have hjoined : ∀ front back : List Piece, renderPieces color (front ++ back) =
      renderPieces color front ++ renderPieces color back := by
    intro front back
    simp [renderPieces]
  simp only [prettyReport, Pretty.report, List.append_assoc, hjoined,
    String.append_assoc]
  exact ⟨_, rfl⟩

/-- All outputs tell the same story.  The reports on any result agree.  A lint
that finds configurations has the same exit code in every format; it is one just
if the JSON report says that the result does not pass, just if the log lists
anything, and just if the report for the terminal says in its summary that it
fails. -/
theorem outputs_tell_same_story :
    (∀ (path contract : String) (base : Path) (r : AuditResult)
        (rules : RuleSet),
      ∃ report log, Json.read (jsonReport path contract r) = some report ∧
        Json.read (sarifReport base r rules) = some log ∧
        ReportsAgree report log r) ∧
      ∀ (tree : FileTree) (arguments : LintArguments) (loaded : LoadedRules)
        (base : Path)
        (targets : List Target),
        tree.FindsTargets arguments.path arguments.contract loaded
          base targets →
        let run := fun format color =>
          runLint tree { arguments with format := format } color
        let result := loaded.audit tree targets
        ∃ code report log,
          (∀ format ∈ ["pretty", "json", "sarif"], ∀ color,
            (run format color).exitCode = code) ∧
          (∀ color, Json.read (run "json" color).output = some report) ∧
          (∀ color, Json.read (run "sarif" color).output = some log) ∧
          ReportsAgree report log result ∧ (code = 0 ∨ code = 1) ∧
          (code = 1 ↔ report.get? "passed" = some (.bool false)) ∧
          (code = 1 ↔ ∃ found, logFindings? log = some found ∧ found ≠ []) ∧
          ∀ color,
            let summary := renderPieces color (Pretty.summary result)
            (∃ rest, (run "pretty" color).output =
              renderPieces color
                (Pretty.header arguments.path.text loaded.source) ++ summary ++
                rest) ∧
              (code = 1 ↔ "FAIL".toList <:+: summary.toList) := by
  refine ⟨fun path contract base r rules =>
    ⟨_, _, read_jsonReport path contract r, read_sarifReport base r rules,
      reportsAgree ..⟩, ?_⟩
  intro tree arguments loaded base targets hfinds run result
  have hrun : ∀ name format, ReportFormat.ofName? name = some format → ∀ color,
      run name color =
        { exitCode := if result.hasViolations then 1 else 0
          output := Lint.report ⟨format, base, loaded, some result⟩
            { arguments with format := name } color result } :=
    fun name _ hformat color =>
      runLint_of_findsTargets { arguments with format := name } hformat
        hfinds color
  have hcode : (if result.hasViolations then 1 else 0) = 1 ↔
      result.hasViolations = true := by
    cases result.hasViolations with
    | true => simp
    | false => simp
  have hagree :=
    reportsAgree arguments.path.text loaded.source base result loaded.rules
  refine ⟨if result.hasViolations then 1 else 0, _, _, ?_, ?_, ?_, hagree, ?_,
    ?_, ?_, ?_⟩
  · intro name hname color
    obtain ⟨format, hformat⟩ := ReportFormat.exists_ofName? hname
    rw [hrun name format hformat]
  · intro color
    rw [hrun "json" .json rfl]
    exact read_jsonReport ..
  · intro color
    rw [hrun "sarif" .sarif rfl]
    exact read_sarifReport ..
  · cases result.hasViolations with
    | true => exact Or.inr rfl
    | false => exact Or.inl rfl
  · rw [hcode, (ReportDocument.get?_toJson _).1]
    simp [ReportDocument.of]
  · rw [hcode, logFindings?_toJson]
    simp [AuditResult.hasViolations]
  · intro color summary
    rw [hrun "pretty" .pretty rfl, hcode]
    exact ⟨exists_prettyReport_eq .., (says_fail_iff color result).symm⟩

namespace AgreeingReportsWitness

/-- A form that keeps its tickets anywhere. -/
def tree : FileTree where
  items :=
    [(["site"], .directory),
     (["site", "Site.csproj"], .file (some "<Project/>")),
     (["site", "Web.config"], .file (some "<web><forms/></web>"))]
  distinct := by decide

def arguments : LintArguments := { path := ⟨"site"⟩ }

def targets : List Target := [⟨⟨"/site/Web.config"⟩, ⟨"/site/Site.csproj"⟩⟩]

theorem findsTargets :
    tree.FindsTargets arguments.path arguments.contract .builtin ⟨"/site"⟩
      targets where
  rules := by decide +kernel
  start := by decide +kernel
  found := by decide +kernel
  nonempty := List.cons_ne_nil _ _

theorem site_fails_in_every_format :
    tree.FindsTargets arguments.path arguments.contract .builtin
        ⟨"/site"⟩ targets ∧
      ∀ format ∈ ["pretty", "json", "sarif"], ∀ color,
        (runLint tree { arguments with format := format } color).exitCode =
          1 := by
  obtain ⟨_, hlints⟩ := outputs_tell_same_story
  obtain ⟨code, report, log, hexit, _, _, hagree, _, _, hlog, _⟩ :=
    hlints tree arguments .builtin ⟨"/site"⟩ targets findsTargets
  have hviolated : (LoadedRules.builtin.audit tree targets).violations ≠
      [] := by decide +kernel
  have hcode : code = 1 := hlog.mpr ⟨_, hagree.logged, by simpa using hviolated⟩
  exact ⟨findsTargets, hcode ▸ hexit⟩

end AgreeingReportsWitness

end WebConfigAudit
