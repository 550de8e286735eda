import WebConfigAudit.Contract.Record
import WebConfigAudit.Json.Read
import WebConfigAudit.Report.Document
/-!
Reading the JSON report of a run back.  Members that are left out when they are
empty have empty defaults, and a count is a number of sixty-four bits.
-/

namespace WebConfigAudit

open Record

/-- A count, a line or a column. -/
def Record.count? : Json → Option Nat
  | .natural n => (Text.wordOfNat? n).map UInt64.toNat
  | _ => none

def ReportedViolation.ofJson? (json : Json) : Option ReportedViolation := do
  match ← members? ["rule", "file", "line", "column", "end_line", "end_column",
    "message"] json with
  | [rule, file, line, column, endLine, endColumn, message] =>
      return {
        rule := ← required Json.string? rule
        file := ← required Json.string? file
        line := ← required count? line
        column := ← required count? column
        endLine := ← required count? endLine
        endColumn := ← required count? endColumn
        message := ← required Json.string? message }
  | _ => none

def ReportedSuppression.ofJson? (json : Json) : Option ReportedSuppression := do
  match ← members? ["rule", "reason", "file", "line", "type"] json with
  | [rule, reason, file, line, kind] =>
      return {
        rule := ← required Json.string? rule
        reason := ← withDefault "" Json.string? reason
        file := ← required Json.string? file
        line := ← required count? line
        kind := ← required Json.string? kind }
  | _ => none

def ReportedPair.ofJson? (json : Json) : Option ReportedPair := do
  match ← members? ["violation", "suppression"] json with
  | [violation, suppression] =>
      return {
        violation := ← required ReportedViolation.ofJson? violation
        suppression := ← required ReportedSuppression.ofJson? suppression }
  | _ => none

def RuleCount.ofJson? (json : Json) : Option RuleCount := do
  match ← members? ["rule", "violations"] json with
  | [rule, violations] =>
      return {
        rule := ← required Json.string? rule
        count := ← required count? violations }
  | _ => none

def ReportDocument.ofJson? (json : Json) : Option ReportDocument := do
  match ← members? ["version", "path", "contract", "passed", "files_scanned",
      "files_failed", "violations", "suppressed", "suppressed_count",
      "breakdown"] json with
  | [version, path, contract, passed, filesScanned, filesFailed, violations,
      suppressed, suppressedCount, breakdown] =>
      return {
        version := ← required Json.string? version
        path := ← required Json.string? path
        contract := ← required Json.string? contract
        passed := ← required Json.bool? passed
        filesScanned := ← required count? filesScanned
        filesFailed := ← withDefault [] (listOf Json.string?) filesFailed
        violations := ← required (listOf ReportedViolation.ofJson?) violations
        suppressed := ← withDefault [] (listOf ReportedPair.ofJson?) suppressed
        suppressedCount := ← required count? suppressedCount
        breakdown := ← required (listOf RuleCount.ofJson?) breakdown }
  | _ => none

def ReportDocument.ofText? (text : String) : Option ReportDocument :=
  (Json.read text).bind ofJson?

end WebConfigAudit
