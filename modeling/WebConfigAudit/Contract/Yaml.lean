import WebConfigAudit.Contract.Basic
import WebConfigAudit.Yaml.Decoder
/-!
Contracts as YAML texts.
-/

namespace WebConfigAudit

namespace ContractFile

open Yaml (Decoder)
open Yaml.Decoder (RecordField)

/-- A field whose value is put into a record. -/
def field {σ α : Type} (name : String) (reader : Decoder α) (put : α → σ → σ) :
    RecordField σ :=
  { name := name, put := do return put (← reader) }

def requiredField {σ α : Type} (name : String) (reader : Decoder α)
    (put : α → σ → σ) : RecordField σ :=
  { field name reader put with required := true }

/-- An element kind by either of its names. -/
def tag : Decoder Tag := do
  let name ← Decoder.text
  match Tag.ofName? name with
  | some tag => return tag
  | none => Decoder.mismatch (.unknownTag name)

/-- A configured value: a number of sixty-four bits, or a text. -/
def configured : Decoder ConfiguredValue := do
  match ← Decoder.content with
  | .text s => return .text s
  | .integer n =>
      match Text.wordOfNat? n.toNat with
      | some word =>
          if n < 0 then Decoder.mismatch .noConfiguredValue
          else return .integer word
      | none => Decoder.mismatch .noConfiguredValue
  | .other => Decoder.mismatch .noConfiguredValue

def check : Decoder CheckSpec :=
  Decoder.record "CheckSpec"
    [requiredField "tag" tag fun tag check => { check with tag := tag },
     requiredField "attribute" Decoder.text fun name check =>
       { check with attributeName := name },
     requiredField "domain" (Decoder.choice ValueDomain.name ValueDomain.all)
       fun domain check => { check with domain := domain },
     field "policy"
       (Decoder.optional (Decoder.choice PolicyName.text PolicyName.all))
       fun policy check => { check with policy := policy },
     field "value" (Decoder.optional configured) fun value check =>
       { check with value := value },
     field "values" (Decoder.list configured) fun values check =>
       { check with values := values }]
    { tag := .sessionState, attributeName := "", domain := .presence }

def rule : Decoder RuleSpec :=
  Decoder.record "RuleSpec"
    [requiredField "id" Decoder.text fun id rule => { rule with id := id },
     field "description" (Decoder.optional Decoder.text)
       fun description rule => { rule with description := description },
     field "checks" (Decoder.list check) fun checks rule =>
       { rule with checks := checks }]
    { id := "" }

def anchor : Decoder AnchorSpec :=
  Decoder.record "AnchorSpec"
    [requiredField "tag" tag fun tag anchor => { anchor with tag := tag },
     requiredField "attribute" Decoder.text
       fun name anchor => { anchor with attributeName := name },
     field "values" (Decoder.list configured)
       fun values anchor => { anchor with values := values }]
    { tag := .sessionState, attributeName := "" }

def countermand : Decoder CountermandSpec :=
  Decoder.record "CountermandSpec"
    [requiredField "tag" tag fun tag countermand =>
       { countermand with tag := tag },
     requiredField "attribute" Decoder.text
       fun name countermand => { countermand with attributeName := name },
     requiredField "value" configured
       fun value countermand => { countermand with value := value }]
    { tag := .sessionState, attributeName := "", value := .integer 0 }

def compoundRule : Decoder CompoundRuleSpec :=
  Decoder.record "CompoundRuleSpec"
    [requiredField "id" Decoder.text fun id rule => { rule with id := id },
     field "description" (Decoder.optional Decoder.text)
       fun description rule => { rule with description := description },
     requiredField "anchor" anchor fun anchor rule =>
       { rule with anchor := anchor },
     requiredField "countermand" countermand
       fun countermand rule => { rule with countermand := countermand }]
    { id := ""
      anchor := { tag := .sessionState, attributeName := "" }
      countermand := { tag := .sessionState, attributeName := "",
                       value := .integer 0 } }

def contract : Decoder Contract :=
  Decoder.record "Contract"
    [field "version" Decoder.text fun version contract =>
       { contract with version := version },
     field "name" Decoder.text fun name contract =>
       { contract with name := name },
     field "description" (Decoder.optional Decoder.text)
       fun description contract => { contract with description := description },
     field "builtin_rules" (Decoder.optional Decoder.bool)
       fun builtin contract => { contract with builtinRules := builtin },
     field "disabled_rules" (Decoder.list Decoder.text)
       fun ids contract => { contract with disabledRules := ids },
     field "excluded_paths" (Decoder.list Decoder.text)
       fun patterns contract => { contract with excludedPaths := patterns },
     field "rules" (Decoder.list rule) fun rules contract =>
       { contract with rules := rules },
     field "compound_rules" (Decoder.list compoundRule)
       fun rules contract => { contract with compoundRules := rules }]
    {}

end ContractFile

def Contract.ofYaml (text : String) : Except Yaml.Failure Contract :=
  Yaml.decode ContractFile.contract text

end WebConfigAudit
