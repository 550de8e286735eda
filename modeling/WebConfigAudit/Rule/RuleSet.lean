import WebConfigAudit.Rule.Basic
import WebConfigAudit.Rule.Compound
/-!
The rules a walk applies.
-/

namespace WebConfigAudit

/-- Rules on single elements and rules on two elements, each in the order of
their reports. -/
structure RuleSet where
  elementRules : List ElementRule := []
  compoundRules : List CompoundRule := []
deriving DecidableEq, Repr

def RuleSet.size (rules : RuleSet) : Nat :=
  rules.elementRules.length + rules.compoundRules.length

def RuleSet.isEmpty (rules : RuleSet) : Bool :=
  rules.elementRules.isEmpty && rules.compoundRules.isEmpty

/-- The names of all rules, those on single elements first. -/
def RuleSet.ids (rules : RuleSet) : List String :=
  rules.elementRules.map ElementRule.id ++
    rules.compoundRules.map CompoundRule.id

/-- The description of the rule with this name.  A rule on single elements
without a description gives way to a compound rule of the same name. -/
def RuleSet.descriptionOf? (rules : RuleSet) (id : String) : Option String :=
  ((rules.elementRules.find? fun rule => rule.id == id).bind
    ElementRule.description).or
    ((rules.compoundRules.find? fun rule => rule.id == id).bind
      CompoundRule.description)

def RuleSet.tags (rules : RuleSet) : List Tag :=
  Tag.sorted
    (rules.elementRules.flatMap ElementRule.tags ++
      rules.compoundRules.flatMap CompoundRule.tags)

end WebConfigAudit
