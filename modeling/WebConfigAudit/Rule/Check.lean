import WebConfigAudit.Element.Attribute
import WebConfigAudit.Text.Decimal
/-!
What a rule demands of one attribute.  Bounds exist for integers only, so no
check can ask for the maximum of a text.
-/

namespace WebConfigAudit

inductive Outcome where
  | pass
  | violation
  | notApplicable
deriving DecidableEq, Repr

/-- How the value of an attribute is read. -/
inductive ValueDomain where
  | integer
  | string
  | presence
deriving DecidableEq, Repr

def ValueDomain.name : ValueDomain → String
  | .integer => "integer"
  | .string => "string"
  | .presence => "presence"

inductive IntegerPolicy where
  | mandatoryValue (expected : UInt64)
  | mandatoryValues (expected : List UInt64)
  | forbiddenValue (forbidden : UInt64)
  | forbiddenValues (forbidden : List UInt64)
  | maxValue (bound : UInt64)
  | minValue (bound : UInt64)
deriving DecidableEq, Repr

def IntegerPolicy.allows : IntegerPolicy → UInt64 → Bool
  | .mandatoryValue expected, n => n == expected
  | .mandatoryValues expected, n => expected.contains n
  | .forbiddenValue forbidden, n => !(n == forbidden)
  | .forbiddenValues forbidden, n => !forbidden.contains n
  | .maxValue bound, n => decide (n ≤ bound)
  | .minValue bound, n => decide (bound ≤ n)

inductive StringPolicy where
  | mandatoryValue (expected : String)
  | mandatoryValues (expected : List String)
  | forbiddenValue (forbidden : String)
  | forbiddenValues (forbidden : List String)
deriving DecidableEq, Repr

/-- A configured text as it is compared: trimmed and in lower case. -/
def normalize (s : String) : String :=
  Text.lowercase (Text.trim s)

def StringPolicy.normalized : StringPolicy → StringPolicy
  | .mandatoryValue expected => .mandatoryValue (normalize expected)
  | .mandatoryValues expected => .mandatoryValues (expected.map normalize)
  | .forbiddenValue forbidden => .forbiddenValue (normalize forbidden)
  | .forbiddenValues forbidden => .forbiddenValues (forbidden.map normalize)

/-- Whether the policy accepts the text, when both are already normalized. -/
def StringPolicy.allows : StringPolicy → String → Bool
  | .mandatoryValue expected, s => s == expected
  | .mandatoryValues expected, s => expected.contains s
  | .forbiddenValue forbidden, s => !(s == forbidden)
  | .forbiddenValues forbidden, s => !forbidden.contains s

/-- A value domain together with the policy within it. -/
inductive Check where
  | integer (policy : IntegerPolicy)
  | string (policy : StringPolicy)
  | presence
deriving DecidableEq, Repr

/-- The check of a text whose configured values are normalized first. -/
def Check.ofStringPolicy (policy : StringPolicy) : Check :=
  .string policy.normalized

def Check.domain : Check → ValueDomain
  | .integer _ => .integer
  | .string _ => .string
  | .presence => .presence

/-- Whether the attribute found on an element, or its absence, meets the check.
An absent attribute offends only a presence check, and a value that is no number
offends every integer policy. -/
def Check.accepts : Check → Option AttributeMatch → Bool
  | .presence, found => found.isSome
  | .integer _, none => true
  | .string _, none => true
  | .integer policy, some found =>
      match Text.readDecimal found.valueText.toList with
      | some n => policy.allows n
      | none => false
  | .string policy, some found => policy.allows found.normalizedValue

def Check.evaluate (check : Check) (found : Option AttributeMatch) : Outcome :=
  if check.accepts found then .pass else .violation

end WebConfigAudit
