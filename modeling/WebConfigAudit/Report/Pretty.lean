import WebConfigAudit.Audit.Result
import WebConfigAudit.Report.Styled
import WebConfigAudit.Report.Summary
import WebConfigAudit.Text.Quoted
/-!
The report of a run for people who read it on a terminal.
-/

namespace WebConfigAudit.Pretty

def plain (s : String) : Piece := { text := s }

def styled (style : Style) (s : String) : Piece := { style := style, text := s }

def lineEnd : Piece := plain "\n"

def plural (n : Nat) : String :=
  if n = 1 then "" else "s"

def ruleWidth : Nat := 48

def header (path contract : String) : List Piece :=
  [plain "\n", plain "  ", styled .title Tool.name,
   plain (" v" ++ Tool.version ++ "\n"), lineEnd, plain "  ",
   styled .dimmed "Scanning: ", plain (path ++ "\n"), plain "  ",
   styled .dimmed "Contract: ", plain (contract ++ "\n"), lineEnd]

/-- The line that tells whether the run passed. -/
def summary (r : AuditResult) : List Piece :=
  [plain "  ",
   if r.hasViolations then styled .red "✗ FAIL" else styled .green "✓ PASS",
   plain ("  " ++ Text.decimal r.scanned ++ " config file" ++
     plural r.scanned ++ " analyzed")] ++
  (if r.suppressed.isEmpty then [] else
    [plain "  ",
     styled .dimmed
       ("(" ++ Text.decimal r.suppressed.length ++ " suppressed)")]) ++
  [lineEnd]

def violation (v : Violation) : List Piece :=
  [plain "    ", styled .red "ERROR", plain " ", plain "  ",
   styled .blue v.file,
   styled .dimmed
     (":" ++ Text.decimal v.span.start.line ++ ":" ++
       Text.decimal v.span.start.column),
   lineEnd,
   plain "            ", styled .dimmed v.rule, lineEnd,
   plain ("            " ++ v.message ++ "\n"), lineEnd]

def violations (vs : List Violation) : List Piece :=
  [plain "  ", styled .bold "Violations",
   plain (" (" ++ Text.decimal vs.length ++ "):\n"), lineEnd] ++
     vs.flatMap violation

def suppressedViolation (p : SuppressedViolation) : List Piece :=
  [plain "    ",
   { style := .dimmed, text := p.violation.rule, width := ruleWidth },
   styled .blue p.violation.file, styled .dimmed
     (if p.suppression.scope = .file then ":* (file)"
      else ":" ++ Text.decimal p.violation.span.start.line),
   lineEnd] ++
  (if p.suppression.reason = "" then [] else
    [plain "            ",
     styled .dimmed ("reason: " ++ Text.quote p.suppression.reason), lineEnd])

/-- The suppressed violations under their heading, in detail or only counted. -/
def suppressed (details : Bool) (ps : List SuppressedViolation) : List Piece :=
  [plain "  ", styled .dimmed "Suppressed",
   plain (" (" ++ Text.decimal ps.length ++ "):\n")] ++
  (if details then lineEnd :: ps.flatMap suppressedViolation
   else [plain "    ", styled .dimmed "(use --show-suppressed to see details)",
     lineEnd])

def failed (files : List String) : List Piece :=
  [plain "  ", styled .yellow "Not analyzed",
   plain (" (" ++ Text.decimal files.length ++ "):\n")] ++
  files.flatMap fun file => [plain "    ", styled .dimmed file, lineEnd]

def breakdown (vs : List Violation) : List Piece :=
  [plain "  ", styled .bold "Breakdown:", lineEnd] ++
  (WebConfigAudit.breakdown vs).flatMap fun entry =>
    [plain "    ", { text := entry.rule, width := ruleWidth },
     plain (" " ++ Text.decimal entry.count ++ " violation" ++
       plural entry.count ++ "\n")]

/-- A part of the report, left out when there is nothing to list. -/
def sectionOf {α : Type} (items : List α) (pieces : List Piece) : List Piece :=
  if items.isEmpty then [] else pieces ++ [lineEnd]

def report (path contract : String) (r : AuditResult) (details : Bool) :
    List Piece :=
  header path contract ++ summary r ++ [lineEnd] ++
  sectionOf r.violations (violations r.violations) ++
  sectionOf r.suppressed (suppressed details r.suppressed) ++
  sectionOf r.failed (failed r.failed) ++
  sectionOf r.violations (breakdown r.violations)

end WebConfigAudit.Pretty

namespace WebConfigAudit

def prettyReport (color : Bool) (path contract : String) (r : AuditResult)
    (details : Bool) : String :=
  renderPieces color (Pretty.report path contract r details)

end WebConfigAudit
