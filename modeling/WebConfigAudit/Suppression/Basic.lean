import WebConfigAudit.Audit.Violation
import WebConfigAudit.Text.CharClass
/-!
Suppressions and the split of violations into those that stand and those that
are suppressed.
-/

namespace WebConfigAudit

/-- A suppression covers its own line, the line after it, or its whole file. -/
inductive Scope where
  | line
  | nextLine
  | file
deriving DecidableEq, Repr

/-- A suppression of one rule, or of all rules if the rule is a star.  The line
is zero for a suppression that covers a whole file. -/
structure Suppression where
  rule : String
  reason : String
  file : String
  line : Nat
  scope : Scope
deriving DecidableEq, Repr

/-- A violation with the suppression that covers it. -/
structure SuppressedViolation where
  violation : Violation
  suppression : Suppression
deriving DecidableEq, Repr

def Suppression.names (s : Suppression) (rule : String) : Bool :=
  s.rule == "*" || Text.sameLetters s.rule rule

def Suppression.covers (s : Suppression) (line : Nat) : Bool :=
  match s.scope with
  | .file => true
  | .line => line == s.line
  | .nextLine => line == s.line + 1

def Suppression.applies (s : Suppression) (v : Violation) : Bool :=
  v.file == s.file && s.names v.rule && s.covers v.span.start.line

/-- The first suppression of the list that applies to the violation. -/
def coveringSuppression? (suppressions : List Suppression) (v : Violation) :
    Option Suppression :=
  suppressions.find? fun s => s.applies v

/-- Split the violations into those that no suppression covers and the covered
ones, each with the first suppression that covers it. -/
def splitSuppressed (suppressions : List Suppression) :
    List Violation → List Violation × List SuppressedViolation
  | [] => ([], [])
  | v :: rest =>
      let (active, suppressed) := splitSuppressed suppressions rest
      match coveringSuppression? suppressions v with
      | some s => (active, ⟨v, s⟩ :: suppressed)
      | none => (v :: active, suppressed)

end WebConfigAudit
