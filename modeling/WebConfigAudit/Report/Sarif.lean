import WebConfigAudit.Audit.Result
import WebConfigAudit.FileTree.Path
import WebConfigAudit.Json.Print
import WebConfigAudit.Report.Summary
import WebConfigAudit.Rule.RuleSet
/-!
The report of a run in the interchange format for static analysis results.
-/

namespace WebConfigAudit

structure SarifRule where
  id : String
  description : String
deriving DecidableEq, Repr

structure SarifResult where
  rule : String
  message : String
  uri : String
  region : Span
deriving DecidableEq, Repr

/-- The log of a run: the rules that were violated, and the violations. -/
structure SarifLog where
  rules : List SarifRule
  results : List SarifResult
deriving DecidableEq, Repr

/-- A backslash in a location is written as a slash. -/
def slashed (s : String) : String :=
  String.ofList (s.toList.map fun c => if c = '\\' then '/' else c)

/-- Where a file lies, seen from the scanned path.  The scanned file itself goes
by its name, and a file elsewhere by its whole path. -/
def relativeUri (file : String) (base : Path) : String :=
  let path : Path := ⟨file⟩
  if base.text = "" then file
  else if path.same base then path.fileName?.getD file
  else match path.stripBase? base with
    | some rest => slashed rest.text
    | none => file

/-- A position with a zero raised to one. -/
def positionFromOne (p : Text.Position) : Text.Position :=
  ⟨max p.line 1, max p.column 1⟩

/-- The rules named by the violations, each once and in order of their names. -/
def sarifRuleIds (violations : List Violation) : List String :=
  (violations.map Violation.rule).eraseDups.mergeSort fun a b =>
    (compare a b).isLE

/-- The log of a result; a rule without a description goes by its name. -/
def SarifLog.of (base : Path) (r : AuditResult) (rules : RuleSet) :
    SarifLog where
  rules := (sarifRuleIds r.violations).map fun id =>
    ⟨id, (rules.descriptionOf? id).getD id⟩
  results := r.violations.map fun v =>
    { rule := v.rule
      message := v.message
      uri := relativeUri v.file base
      region := ⟨positionFromOne v.span.start, positionFromOne v.span.stop⟩ }

/-- A text in the place of a message. -/
def sarifMessage (s : String) : Json :=
  .object [("text", .string s)]

def SarifRule.toJson (r : SarifRule) : Json :=
  .object
    [("id", .string r.id), ("name", .string r.id),
     ("shortDescription", sarifMessage r.description),
     ("defaultConfiguration", .object [("level", .string "error")])]

def sarifRegion (s : Span) : Json :=
  .object
    [("startLine", .natural s.start.line),
     ("startColumn", .natural s.start.column),
     ("endLine", .natural s.stop.line), ("endColumn", .natural s.stop.column)]

def SarifResult.toJson (r : SarifResult) : Json :=
  .object
    [("ruleId", .string r.rule), ("level", .string "error"),
     ("message", sarifMessage r.message), ("locations", .array
       [.object
         [("physicalLocation", .object
           [("artifactLocation", .object [("uri", .string r.uri)]),
            ("region", sarifRegion r.region)])]])]

def SarifLog.toJson (log : SarifLog) : Json :=
  .object
    [("version", .string "2.1.0"),
     ("$schema", .string
       "https://raw.githubusercontent.com/oasis-tcs/sarif-spec/master/Schemata/sarif-schema-2.1.0.json"),
     ("runs", .array
       [.object
         [("tool", .object
           [("driver", .object
             [("name", .string Tool.name), ("version", .string Tool.version),
              ("rules", .array (log.rules.map SarifRule.toJson))])]),
          ("results", .array (log.results.map SarifResult.toJson))]])]

/-- The log of a result as text, one line feed after it. -/
def sarifReport (base : Path) (r : AuditResult) (rules : RuleSet) : String :=
  (SarifLog.of base r rules).toJson.pretty ++ "\n"

end WebConfigAudit
