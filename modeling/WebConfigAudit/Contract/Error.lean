import WebConfigAudit.Contract.Basic
import WebConfigAudit.Glob.Pattern
/-!
Why a contract is refused.
-/

namespace WebConfigAudit

inductive ContractError where
  | emptyRuleId
  | duplicateRule (id : String)
  | noChecks (id : String)
  | unknownDisabledRule (id : String)
  | missingPolicy (rule : String) (tag : Tag) (attributeName : String)
      (domain : ValueDomain)
  | policyDomainMismatch (rule : String) (policy : PolicyName)
      (domain : ValueDomain)
  | missingValue (rule : String) (policy : PolicyName)
  | notAnInteger (rule : String) (value : String)
  | emptyAttribute (rule : String)
  | invalidGlob (pattern : String) (reason : Glob.PatternError)
deriving DecidableEq, Repr

/-- The start of a message about a rule. -/
def aboutRule (id : String) : String :=
  "rule " ++ Text.quote id

def ContractError.message : ContractError → String
  | .emptyRuleId => "rule id must not be empty"
  | .duplicateRule id => aboutRule id ++ " is defined more than once"
  | .noChecks id => aboutRule id ++ " has no checks"
  | .unknownDisabledRule id =>
      aboutRule id ++ ": disabled rule is not a built-in rule"
  | .missingPolicy rule tag attributeName domain =>
      aboutRule rule ++ ": " ++ tag.typeName ++ "." ++ attributeName ++
        " needs a policy for the " ++ domain.name ++ " domain"
  | .policyDomainMismatch rule policy domain =>
      aboutRule rule ++ ": policy " ++ policy.text ++
        " is not valid for the " ++ domain.name ++ " domain"
  | .missingValue rule policy =>
      aboutRule rule ++ ": policy " ++ policy.text ++ " needs a value"
  | .notAnInteger rule value =>
      aboutRule rule ++ ": " ++ Text.quote value ++ " is not an integer"
  | .emptyAttribute rule =>
      aboutRule rule ++ ": attribute name must not be empty"
  | .invalidGlob pattern reason =>
      "invalid excluded_paths pattern " ++ Text.quote pattern ++ ": " ++
        Glob.PatternError.message pattern reason

end WebConfigAudit
