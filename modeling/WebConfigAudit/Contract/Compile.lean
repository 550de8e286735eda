import WebConfigAudit.Contract.Error
import WebConfigAudit.Rule.Builtin
/-!
From the flat form of a contract to the rules it means.  Combinations that no
rule can express, such as a bound on a text, are refused.
-/

namespace WebConfigAudit

namespace CheckSpec

def single (spec : CheckSpec) (rule : String) (policy : PolicyName) :
    Except ContractError ConfiguredValue :=
  match spec.value with
  | some value => .ok value
  | none => .error (.missingValue rule policy)

/-- The values of the check; a lone value counts as a list of one. -/
def several (spec : CheckSpec) (rule : String) (policy : PolicyName) :
    Except ContractError (List ConfiguredValue) :=
  if spec.values.isEmpty then
    match spec.value with
    | some value => .ok [value]
    | none => .error (.missingValue rule policy)
  else .ok spec.values

def integerOf (rule : String) (value : ConfiguredValue) :
    Except ContractError UInt64 :=
  match value.asInteger? with
  | some n => .ok n
  | none => .error (.notAnInteger rule value.asText)

def integerPolicy (spec : CheckSpec) (rule : String) (policy : PolicyName) :
    Except ContractError IntegerPolicy := do
  let one := do integerOf rule (← spec.single rule policy)
  let many := do (← spec.several rule policy).mapM (integerOf rule)
  match policy with
  | .mandatoryValue => return .mandatoryValue (← one)
  | .mandatoryValues => return .mandatoryValues (← many)
  | .forbiddenValue => return .forbiddenValue (← one)
  | .forbiddenValues => return .forbiddenValues (← many)
  | .maxValue => return .maxValue (← one)
  | .minValue => return .minValue (← one)

def stringPolicy (spec : CheckSpec) (rule : String) (policy : PolicyName) :
    Except ContractError StringPolicy := do
  let one := do return (← spec.single rule policy).asText
  let many := do return (← spec.several rule policy).map ConfiguredValue.asText
  match policy with
  | .mandatoryValue => return .mandatoryValue (← one)
  | .mandatoryValues => return .mandatoryValues (← many)
  | .forbiddenValue => return .forbiddenValue (← one)
  | .forbiddenValues => return .forbiddenValues (← many)
  | .maxValue => throw (.policyDomainMismatch rule policy spec.domain)
  | .minValue => throw (.policyDomainMismatch rule policy spec.domain)

/-- The check that the specification means, in a rule of the given name. -/
def compileCheck (spec : CheckSpec) (rule : String) :
    Except ContractError Check :=
  match spec.domain, spec.policy with
  | .presence, none => .ok .presence
  | .presence, some .mandatoryValue => .ok .presence
  | .presence, some .mandatoryValues => .ok .presence
  | .presence, some policy =>
      .error (.policyDomainMismatch rule policy .presence)
  | domain, none =>
      .error (.missingPolicy rule spec.tag spec.attributeName domain)
  | .integer, some policy => (spec.integerPolicy rule policy).map Check.integer
  | .string, some policy =>
      (spec.stringPolicy rule policy).map Check.ofStringPolicy

def compile (spec : CheckSpec) (rule : String) : Except ContractError Clause :=
  if Text.isBlankText spec.attributeName then .error (.emptyAttribute rule)
  else (spec.compileCheck rule).map
    (Clause.of spec.tag (Text.trim spec.attributeName))

end CheckSpec

def RuleSpec.compile (spec : RuleSpec) : Except ContractError ElementRule :=
  if Text.isBlankText spec.id then .error .emptyRuleId
  else if spec.checks.isEmpty then .error (.noChecks spec.id)
  else
    (spec.checks.mapM fun (check : CheckSpec) => check.compile spec.id).map
      fun clauses =>
        ⟨spec.id, spec.description, clauses⟩

def CompoundRuleSpec.compile (spec : CompoundRuleSpec) :
    Except ContractError CompoundRule :=
  if Text.isBlankText spec.id then .error .emptyRuleId
  else if Text.isBlankText spec.anchor.attributeName ||
      Text.isBlankText spec.countermand.attributeName then
    .error (.emptyAttribute spec.id)
  else
    .ok
      { id := spec.id
        description := spec.description
        anchor := .of spec.anchor.tag (Text.trim spec.anchor.attributeName)
          (spec.anchor.values.map ConfiguredValue.asText)
        countermand := .of spec.countermand.tag
          (Text.trim spec.countermand.attributeName)
          spec.countermand.value.asText }

/-- The first entry that occurred before, if any. -/
def firstRepeated (seen : List String) : List String → Option String
  | [] => none
  | id :: rest =>
      if seen.contains id then some id else firstRepeated (id :: seen) rest

/-- The built-in rules that the contract leaves on. -/
def Contract.builtinPart (contract : Contract) : RuleSet :=
  if contract.usesBuiltinRules then
    ⟨Builtin.rules.elementRules.filter fun rule =>
       !contract.disabledRules.contains rule.id,
     Builtin.rules.compoundRules.filter fun rule =>
       !contract.disabledRules.contains rule.id⟩
  else {}

/-- The built-in rules that the contract leaves on, and then its own. -/
def Contract.compile (contract : Contract) : Except ContractError RuleSet := do
  match contract.disabledRules.find? fun id =>
    !Builtin.rules.ids.contains id with
  | some id => throw (.unknownDisabledRule id)
  | none =>
      let own ← contract.rules.mapM RuleSpec.compile
      let ownCompound ← contract.compoundRules.mapM CompoundRuleSpec.compile
      let rules : RuleSet :=
        ⟨contract.builtinPart.elementRules ++ own,
         contract.builtinPart.compoundRules ++ ownCompound⟩
      match firstRepeated [] rules.ids with
      | some id => throw (.duplicateRule id)
      | none => return rules

end WebConfigAudit
