import WebConfigAudit.Element.Span
/-!
Reported violations and their order.
-/

namespace WebConfigAudit

/-- A rule violated at a place in a file. -/
structure Violation where
  file : String
  rule : String
  span : Span
  message : String
deriving DecidableEq, Repr

/-- By file, then rule, then place, then message. -/
def Violation.compare (v w : Violation) : Ordering :=
  (Ord.compare v.file w.file).then <| (Ord.compare v.rule w.rule).then <|
    (v.span.compare w.span).then (Ord.compare v.message w.message)

/-- Whether one violation may stand before another in sorted order. -/
def Violation.le (v w : Violation) : Bool :=
  (v.compare w).isLE

def Violation.sort (violations : List Violation) : List Violation :=
  violations.mergeSort Violation.le

end WebConfigAudit
