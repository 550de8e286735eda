import WebConfigAudit.Contract.Basic
import WebConfigAudit.Json.Value
/-!
Contracts as JSON values.  Reading accepts more than writing produces: members
may be missing or unknown, and a record may be an array of its members in order.
-/

namespace WebConfigAudit

namespace Record

/-- The members of a record in the order of their names: those of an object by
name, those of an array by place. -/
def members? (names : List String) : Json → Option (List (Option Json))
  | .object members =>
      some (names.map fun name => (Json.object members).get? name)
  | .array items =>
      if items.length ≤ names.length then
        some (items.map some ++
          List.replicate (names.length - items.length) none)
      else none
  | _ => none

def required (decode : Json → Option α) : Option Json → Option α
  | none => none
  | some json => decode json

def withDefault (default : α) (decode : Json → Option α) :
    Option Json → Option α
  | none => some default
  | some json => decode json

/-- A member that may be missing or null. -/
def optional (decode : Json → Option α) : Option Json → Option (Option α)
  | none => some none
  | some .null => some none
  | some json => (decode json).map some

def listOf (decode : Json → Option α) : Json → Option (List α)
  | .array items => items.mapM decode
  | _ => none

/-- A name, or an object that gives the name nothing. -/
def choice (name : α → String) (all : List α) : Json → Option α
  | .string text => all.find? fun a => name a == text
  | .object [(text, .null)] => all.find? fun a => name a == text
  | _ => none

def orNull (encode : α → Json) : Option α → Json
  | none => .null
  | some a => encode a

end Record

open Record

/-- An element kind by either of its names. -/
def Tag.ofJson? : Json → Option Tag
  | .string text => Tag.ofName? text
  | _ => none

/-- A configured value: a number of sixty-four bits, or a text. -/
def ConfiguredValue.ofJson? : Json → Option ConfiguredValue
  | .natural n => (Text.wordOfNat? n).map .integer
  | .string s => some (.text s)
  | _ => none

def CheckSpec.ofJson? (json : Json) : Option CheckSpec := do
  match ← members? ["tag", "attribute", "domain", "policy", "value",
    "values"] json with
  | [tag, attributeName, domain, policy, value, values] =>
      return {
        tag := ← required Tag.ofJson? tag
        attributeName := ← required Json.string? attributeName
        domain := ← required (choice ValueDomain.name ValueDomain.all) domain
        policy := ← optional (choice PolicyName.text PolicyName.all) policy
        value := ← optional ConfiguredValue.ofJson? value
        values := ← withDefault [] (listOf ConfiguredValue.ofJson?) values }
  | _ => none

def RuleSpec.ofJson? (json : Json) : Option RuleSpec := do
  match ← members? ["id", "description", "checks"] json with
  | [id, description, checks] =>
      return {
        id := ← required Json.string? id
        description := ← optional Json.string? description
        checks := ← withDefault [] (listOf CheckSpec.ofJson?) checks }
  | _ => none

def AnchorSpec.ofJson? (json : Json) : Option AnchorSpec := do
  match ← members? ["tag", "attribute", "values"] json with
  | [tag, attributeName, values] =>
      return {
        tag := ← required Tag.ofJson? tag
        attributeName := ← required Json.string? attributeName
        values := ← withDefault defaultAffirmative
          (listOf ConfiguredValue.ofJson?) values }
  | _ => none

def CountermandSpec.ofJson? (json : Json) : Option CountermandSpec := do
  match ← members? ["tag", "attribute", "value"] json with
  | [tag, attributeName, value] =>
      return {
        tag := ← required Tag.ofJson? tag
        attributeName := ← required Json.string? attributeName
        value := ← required ConfiguredValue.ofJson? value }
  | _ => none

def CompoundRuleSpec.ofJson? (json : Json) : Option CompoundRuleSpec := do
  match ← members? ["id", "description", "anchor", "countermand"] json with
  | [id, description, anchor, countermand] =>
      return {
        id := ← required Json.string? id
        description := ← optional Json.string? description
        anchor := ← required AnchorSpec.ofJson? anchor
        countermand := ← required CountermandSpec.ofJson? countermand }
  | _ => none

def Contract.ofJson? (json : Json) : Option Contract := do
  match ← members? ["version", "name", "description", "builtin_rules",
      "disabled_rules", "excluded_paths", "rules", "compound_rules"] json with
  | [version, name, description, builtinRules, disabledRules,
      excludedPaths, rules, compoundRules] =>
      return {
        version := ← withDefault "" Json.string? version
        name := ← withDefault "" Json.string? name
        description := ← optional Json.string? description
        builtinRules := ← optional Json.bool? builtinRules
        disabledRules := ← withDefault [] (listOf Json.string?) disabledRules
        excludedPaths := ← withDefault [] (listOf Json.string?) excludedPaths
        rules := ← withDefault [] (listOf RuleSpec.ofJson?) rules
        compoundRules := ← withDefault [] (listOf CompoundRuleSpec.ofJson?)
          compoundRules }
  | _ => none

/-- A configured value as a number or a string. -/
def ConfiguredValue.toJson : ConfiguredValue → Json
  | .integer n => .natural n.toNat
  | .text s => .string s

def CheckSpec.toJson (spec : CheckSpec) : Json :=
  .object
    [("tag", .string spec.tag.typeName),
     ("attribute", .string spec.attributeName),
     ("domain", .string spec.domain.name),
     ("policy", orNull (fun policy => .string (PolicyName.text policy))
       spec.policy), ("value", orNull ConfiguredValue.toJson spec.value),
     ("values", .array (spec.values.map ConfiguredValue.toJson))]

def RuleSpec.toJson (spec : RuleSpec) : Json :=
  .object
    [("id", .string spec.id), ("description", orNull .string spec.description),
     ("checks", .array (spec.checks.map CheckSpec.toJson))]

def AnchorSpec.toJson (spec : AnchorSpec) : Json :=
  .object
    [("tag", .string spec.tag.typeName),
     ("attribute", .string spec.attributeName),
     ("values", .array (spec.values.map ConfiguredValue.toJson))]

def CountermandSpec.toJson (spec : CountermandSpec) : Json :=
  .object
    [("tag", .string spec.tag.typeName),
     ("attribute", .string spec.attributeName), ("value", spec.value.toJson)]

def CompoundRuleSpec.toJson (spec : CompoundRuleSpec) : Json :=
  .object
    [("id", .string spec.id), ("description", orNull .string spec.description),
     ("anchor", spec.anchor.toJson), ("countermand", spec.countermand.toJson)]

def Contract.toJson (contract : Contract) : Json :=
  .object
    [("version", .string contract.version), ("name", .string contract.name),
     ("description", orNull .string contract.description),
     ("builtin_rules", orNull .bool contract.builtinRules),
     ("disabled_rules", .array (contract.disabledRules.map .string)),
     ("excluded_paths", .array (contract.excludedPaths.map .string)),
     ("rules", .array (contract.rules.map RuleSpec.toJson)),
     ("compound_rules",
       .array (contract.compoundRules.map CompoundRuleSpec.toJson))]

end WebConfigAudit
