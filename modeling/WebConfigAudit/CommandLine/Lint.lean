import WebConfigAudit.Audit.Run
import WebConfigAudit.CommandLine.Arguments
import WebConfigAudit.CommandLine.Outcome
import WebConfigAudit.Report.Document
import WebConfigAudit.Report.Pretty
import WebConfigAudit.Report.Sarif
import WebConfigAudit.Target.Collection
/-!
The command that audits configurations and reports what it finds.
-/

namespace WebConfigAudit

inductive ReportFormat where
  | pretty
  | json
  | sarif
deriving DecidableEq, Repr

def ReportFormat.ofName? : String → Option ReportFormat
  | "pretty" => some .pretty
  | "json" => some .json
  | "sarif" => some .sarif
  | _ => none

inductive LintError where
  | format (name : String)
  | rules (cause : LoadError)
  | access (path : Path) (cause : FileError)
  | search (cause : FileError)
deriving DecidableEq, Repr

def LintError.message : LintError → String
  | .format name =>
      "invalid format " ++ Text.quote name ++
        ", must be 'pretty', 'json', or 'sarif'"
  | .rules cause => cause.message
  | .access path cause =>
      "cannot access path " ++ Text.quotePath path.text ++ ": " ++ cause.message
  | .search cause => cause.message

/-- A lint that took place: in which format its result is wanted, the canonical
path it started from, the rules, and the result, if there was any configuration
to look at. -/
structure Lint where
  format : ReportFormat
  base : Path
  loaded : LoadedRules
  result : Option AuditResult
deriving DecidableEq, Repr

/-- Audit the configurations that the arguments ask for. -/
def FileTree.lint (tree : FileTree) (arguments : LintArguments) :
    Except LintError Lint := do
  match ReportFormat.ofName? arguments.format with
  | none => throw (.format arguments.format)
  | some format =>
      let loaded ← (tree.loadRules arguments.contract).mapError LintError.rules
      let base ← (tree.canonical arguments.path).mapError
        (LintError.access arguments.path)
      let targets ← (tree.targets loaded.contract base).mapError
        LintError.search
      let analyzer := (Analyzer.mk loaded.rules false).withReader
      let result := if targets.isEmpty then none
        else some (analyzer.run tree targets)
      return ⟨format, base, loaded, result⟩

def Lint.report (lint : Lint) (arguments : LintArguments) (color : Bool)
    (result : AuditResult) : String :=
  match lint.format with
  | .json => jsonReport arguments.path.text lint.loaded.source result
  | .sarif => sarifReport lint.base result lint.loaded.rules
  | .pretty =>
      prettyReport color arguments.path.text lint.loaded.source result
        arguments.showSuppressed

/-- What a lint leaves behind.  It fails if a violation stands. -/
def Lint.outcome (lint : Lint) (arguments : LintArguments) (color : Bool) :
    CommandOutcome :=
  match lint.result with
  | none =>
      { errors :=
          "Warning: no web.config files belonging to a project were found\n" }
  | some result =>
      { exitCode := if result.hasViolations then 1 else 0
        output := lint.report arguments color result }

def runLint (tree : FileTree) (arguments : LintArguments) (color : Bool) :
    CommandOutcome :=
  match tree.lint arguments with
  | .ok lint => lint.outcome arguments color
  | .error e => .failure e.message []

end WebConfigAudit
