import WebConfigAudit.Text.Decimal
import WebConfigAudit.Text.Position
/-!
Stretches of a source text.
-/

namespace WebConfigAudit

open Text (Position)

/-- From the place of the first character to the place after the last one. -/
structure Span where
  start : Position
  stop : Position
deriving DecidableEq, Repr

/-- The span of a node that has no place in any text. -/
def Span.nowhere : Span := ⟨⟨0, 0⟩, ⟨0, 0⟩⟩

/-- By start, then by end. -/
def Span.compare (s t : Span) : Ordering :=
  (s.start.compare t.start).then (s.stop.compare t.stop)

/-- Both places, each as line and column. -/
def Span.text (s : Span) : String :=
  Text.decimal s.start.line ++ ":" ++ Text.decimal s.start.column ++ "-" ++
    Text.decimal s.stop.line ++ ":" ++ Text.decimal s.stop.column

end WebConfigAudit
