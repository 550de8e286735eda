import WebConfigAudit.Audit.Result
import WebConfigAudit.Json.Print
import WebConfigAudit.Report.Summary
/-!
The report of a run as a JSON document.
-/

namespace WebConfigAudit

structure ReportedViolation where
  rule : String
  file : String
  line : Nat
  column : Nat
  endLine : Nat
  endColumn : Nat
  message : String
deriving DecidableEq, Repr

structure ReportedSuppression where
  rule : String
  reason : String
  file : String
  line : Nat
  kind : String
deriving DecidableEq, Repr

structure ReportedPair where
  violation : ReportedViolation
  suppression : ReportedSuppression
deriving DecidableEq, Repr

structure ReportDocument where
  version : String
  path : String
  contract : String
  passed : Bool
  filesScanned : Nat
  filesFailed : List String
  violations : List ReportedViolation
  suppressed : List ReportedPair
  suppressedCount : Nat
  breakdown : List RuleCount
deriving DecidableEq, Repr

def ReportedViolation.of (v : Violation) : ReportedViolation where
  rule := v.rule
  file := v.file
  line := v.span.start.line
  column := v.span.start.column
  endLine := v.span.stop.line
  endColumn := v.span.stop.column
  message := v.message

def Scope.reportName : Scope → String
  | .line => "line"
  | .nextLine => "next-line"
  | .file => "file"

def ReportedSuppression.of (s : Suppression) : ReportedSuppression where
  rule := s.rule
  reason := s.reason
  file := s.file
  line := s.line
  kind := s.scope.reportName

def ReportedPair.of (p : SuppressedViolation) : ReportedPair :=
  ⟨.of p.violation, .of p.suppression⟩

/-- The report of a result; `path` and `contract` are shown as given. -/
def ReportDocument.of (path contract : String) (r : AuditResult) :
    ReportDocument where
  version := Tool.version
  path := path
  contract := contract
  passed := !r.hasViolations
  filesScanned := r.scanned
  filesFailed := r.failed
  violations := r.violations.map .of
  suppressed := r.suppressed.map .of
  suppressedCount := r.suppressed.length
  breakdown := WebConfigAudit.breakdown r.violations

/-- A member that is left out when its list is empty. -/
def unlessEmpty (key : String) (items : List Json) : List (String × Json) :=
  if items.isEmpty then [] else [(key, .array items)]

def ReportedViolation.toJson (v : ReportedViolation) : Json :=
  .object
    [("rule", .string v.rule), ("file", .string v.file),
     ("line", .natural v.line), ("column", .natural v.column),
     ("end_line", .natural v.endLine), ("end_column", .natural v.endColumn),
     ("message", .string v.message)]

/-- The members of a reported suppression.  An empty reason is left out. -/
def ReportedSuppression.toJson (s : ReportedSuppression) : Json :=
  .object <|
    [("rule", .string s.rule)] ++
    (if s.reason = "" then [] else [("reason", .string s.reason)]) ++
    [("file", .string s.file), ("line", .natural s.line),
     ("type", .string s.kind)]

def ReportedPair.toJson (p : ReportedPair) : Json :=
  .object [("violation", p.violation.toJson),
    ("suppression", p.suppression.toJson)]

def RuleCount.toJson (c : RuleCount) : Json :=
  .object [("rule", .string c.rule), ("violations", .natural c.count)]

/-- The members of the report.  The lists of failed files and of suppressed
violations are left out when they are empty. -/
def ReportDocument.toJson (d : ReportDocument) : Json :=
  .object <|
    [("version", .string d.version), ("path", .string d.path),
     ("contract", .string d.contract), ("passed", .bool d.passed),
     ("files_scanned", .natural d.filesScanned)] ++
    unlessEmpty "files_failed" (d.filesFailed.map .string) ++
    [("violations", .array (d.violations.map ReportedViolation.toJson))] ++
    unlessEmpty "suppressed" (d.suppressed.map ReportedPair.toJson) ++
    [("suppressed_count", .natural d.suppressedCount),
     ("breakdown", .array (d.breakdown.map RuleCount.toJson))]

/-- The report of a result as text, one line feed after it. -/
def jsonReport (path contract : String) (r : AuditResult) : String :=
  (ReportDocument.of path contract r).toJson.pretty ++ "\n"

end WebConfigAudit
