import WebConfigAudit.Rule.Check
/-!
Contracts: which rules apply to a project, and which paths are left out.  This
is the flat form in which people write rules; it can say things that no rule can
mean.
-/

namespace WebConfigAudit

inductive ConfiguredValue where
  | integer (n : UInt64)
  | text (s : String)
deriving DecidableEq, Repr

def ConfiguredValue.asText : ConfiguredValue → String
  | .integer n => Text.decimal n.toNat
  | .text s => s

/-- The value as a number, if its text is a numeral. -/
def ConfiguredValue.asInteger? : ConfiguredValue → Option UInt64
  | .integer n => some n
  | .text s => Text.readSignedDecimal (Text.trimChars s.toList)

inductive PolicyName where
  | mandatoryValue
  | mandatoryValues
  | forbiddenValue
  | forbiddenValues
  | maxValue
  | minValue
deriving DecidableEq, Repr

/-- The name as contracts and messages write it. -/
def PolicyName.text : PolicyName → String
  | .mandatoryValue => "mandatory_value"
  | .mandatoryValues => "mandatory_values"
  | .forbiddenValue => "forbidden_value"
  | .forbiddenValues => "forbidden_values"
  | .maxValue => "max_value"
  | .minValue => "min_value"

/-- Every policy, in the order in which messages list them. -/
def PolicyName.all : List PolicyName :=
  [.mandatoryValue, .mandatoryValues, .forbiddenValue, .forbiddenValues,
   .maxValue, .minValue]

/-- Every value domain, in the order in which messages list them. -/
def ValueDomain.all : List ValueDomain := [.integer, .string, .presence]

structure CheckSpec where
  tag : Tag
  attributeName : String
  domain : ValueDomain
  policy : Option PolicyName := none
  value : Option ConfiguredValue := none
  values : List ConfiguredValue := []
deriving DecidableEq, Repr

/-- A rule on single elements as a contract writes it. -/
structure RuleSpec where
  id : String
  description : Option String := none
  checks : List CheckSpec := []
deriving DecidableEq, Repr

/-- The values that switch a capability on if the contract names none. -/
def defaultAffirmative : List ConfiguredValue := [.text "true", .integer 1]

structure AnchorSpec where
  tag : Tag
  attributeName : String
  values : List ConfiguredValue := defaultAffirmative
deriving DecidableEq, Repr

structure CountermandSpec where
  tag : Tag
  attributeName : String
  value : ConfiguredValue
deriving DecidableEq, Repr

/-- A rule on two elements as a contract writes it. -/
structure CompoundRuleSpec where
  id : String
  description : Option String := none
  anchor : AnchorSpec
  countermand : CountermandSpec
deriving DecidableEq, Repr

structure Contract where
  version : String := ""
  name : String := ""
  description : Option String := none
  builtinRules : Option Bool := none
  disabledRules : List String := []
  excludedPaths : List String := []
  rules : List RuleSpec := []
  compoundRules : List CompoundRuleSpec := []
deriving DecidableEq, Repr

/-- The built-in rules apply unless the contract switches them off. -/
def Contract.usesBuiltinRules (contract : Contract) : Bool :=
  contract.builtinRules.getD true

end WebConfigAudit
