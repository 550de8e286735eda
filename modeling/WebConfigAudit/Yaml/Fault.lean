import WebConfigAudit.Text.Decimal
import WebConfigAudit.Yaml.Character
/-!
Faults of syntax.
-/

namespace WebConfigAudit.Yaml

/-- A place as messages write it: its line and column, counted from one. -/
def Mark.text (m : Mark) : String :=
  "line " ++ Text.decimal (m.line + 1) ++ " column " ++
    Text.decimal (m.column + 1)

/-- Whether the place is the start of the text, which messages leave out. -/
def Mark.isStart (m : Mark) : Bool :=
  m.line == 0 && m.column == 0

def Mark.suffix (m : Mark) : String :=
  if m.isStart then "" else " at " ++ m.text

/-- What is wrong and where, and what was being read and where that starts. -/
inductive Fault where
  | character (offset : Nat)
  | at (problem : String) (mark : Mark)
  | within (problem : String) (mark : Mark) (context : String) (start : Mark)
deriving DecidableEq, Repr

/-- The wording of the fault.  The start of what was being read is told only if
it is another place than that of the problem. -/
def Fault.message : Fault → String
  | .character offset =>
      "control characters are not allowed" ++
        if offset = 0 then "" else " at position " ++ Text.decimal offset
  | .at problem mark => problem ++ mark.suffix
  | .within problem mark context start =>
      problem ++ mark.suffix ++ ", " ++ context ++
        if start.line = mark.line ∧ start.column = mark.column then ""
        else start.suffix

end WebConfigAudit.Yaml
