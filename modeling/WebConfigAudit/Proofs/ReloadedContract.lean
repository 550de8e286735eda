import WebConfigAudit.Contract.Compile
import WebConfigAudit.Contract.Exclusion
import WebConfigAudit.Proofs.JsonText
import WebConfigAudit.Proofs.Records
/-!
Contracts written as JSON texts and read again.  Every contract is read back as
it was, so it means the same rules and leaves out the same paths.
-/

namespace WebConfigAudit

open Record

/-! Names and values -/

theorem Tag.ofName?_typeName (tag : Tag) :
    Tag.ofName? tag.typeName = some tag := by
  have hall : ∀ tag ∈ Tag.all, Tag.ofName? tag.typeName = some tag := by
    decide +kernel
  exact hall tag tag.mem_all

theorem ValueDomain.choice_name (domain : ValueDomain) :
    choice ValueDomain.name ValueDomain.all (.string domain.name) =
      some domain := by
  cases domain <;> simp [choice, ValueDomain.all, name]

theorem PolicyName.choice_text (policy : PolicyName) :
    choice PolicyName.text PolicyName.all (.string policy.text) =
      some policy := by
  cases policy <;> simp [choice, PolicyName.all, text]

theorem Text.wordOfNat?_toNat (n : UInt64) :
    Text.wordOfNat? n.toNat = some n := by
  have hsize : n.toNat < UInt64.size := n.toNat_lt_size
  simp [Text.wordOfNat?, hsize]

namespace ConfiguredValue

/-- A text stays a text, also if it is a numeral. -/
theorem ofJson?_toJson (value : ConfiguredValue) :
    ofJson? value.toJson = some value := by
  cases value with
  | integer n => simp [toJson, ofJson?, Text.wordOfNat?_toNat]
  | text s => rfl

theorem toJson_ne_null (value : ConfiguredValue) : value.toJson ≠ .null := by
  cases value <;> simp [toJson]

end ConfiguredValue

theorem listOf_configured (values : List ConfiguredValue) :
    listOf ConfiguredValue.ofJson?
      (.array (values.map ConfiguredValue.toJson)) = some values :=
  listOf_map fun value _ => value.ofJson?_toJson

theorem listOf_strings (texts : List String) :
    listOf Json.string? (.array (texts.map Json.string)) = some texts :=
  listOf_map fun _ _ => rfl

theorem optional_string (text? : Option String) :
    optional Json.string? (some (orNull Json.string text?)) = some text? :=
  optional_orNull (fun _ => rfl) fun _ => by simp

/-! Specifications -/

theorem CheckSpec.ofJson?_toJson (spec : CheckSpec) :
    ofJson? spec.toJson = some spec := by
  have hpolicy : optional (choice PolicyName.text PolicyName.all)
      (some (orNull (fun policy => .string policy.text) spec.policy)) =
      some spec.policy :=
    optional_orNull PolicyName.choice_text fun _ => by simp
  have hvalue : optional ConfiguredValue.ofJson?
      (some (orNull ConfiguredValue.toJson spec.value)) = some spec.value :=
    optional_orNull ConfiguredValue.ofJson?_toJson
      ConfiguredValue.toJson_ne_null
  simp [ofJson?, toJson, members?, Json.get?, required, withDefault,
    Json.string?, Tag.ofJson?, Tag.ofName?_typeName, ValueDomain.choice_name,
    hpolicy, hvalue, listOf_configured]

theorem RuleSpec.ofJson?_toJson (spec : RuleSpec) :
    ofJson? spec.toJson = some spec := by
  have hchecks :
      listOf CheckSpec.ofJson? (.array (spec.checks.map CheckSpec.toJson)) =
        some spec.checks := listOf_map fun check _ => check.ofJson?_toJson
  simp [ofJson?, toJson, members?, Json.get?, required, withDefault,
    Json.string?, optional_string, hchecks]

theorem AnchorSpec.ofJson?_toJson (spec : AnchorSpec) :
    ofJson? spec.toJson = some spec := by
  simp [ofJson?, toJson, members?, Json.get?, required, withDefault,
    Json.string?, Tag.ofJson?, Tag.ofName?_typeName, listOf_configured]

theorem CountermandSpec.ofJson?_toJson (spec : CountermandSpec) :
    ofJson? spec.toJson = some spec := by
  simp [ofJson?, toJson, members?, Json.get?, required, Json.string?,
    Tag.ofJson?, Tag.ofName?_typeName, ConfiguredValue.ofJson?_toJson]

theorem CompoundRuleSpec.ofJson?_toJson (spec : CompoundRuleSpec) :
    ofJson? spec.toJson = some spec := by
  simp [ofJson?, toJson, members?, Json.get?, required, Json.string?,
    optional_string, AnchorSpec.ofJson?_toJson, CountermandSpec.ofJson?_toJson]

theorem Contract.ofJson?_toJson (contract : Contract) :
    ofJson? contract.toJson = some contract := by
  have hbuiltin :
      optional Json.bool? (some (orNull Json.bool contract.builtinRules)) =
        some contract.builtinRules :=
    optional_orNull (fun _ => rfl) fun _ => by simp
  have hrules :
      listOf RuleSpec.ofJson? (.array (contract.rules.map RuleSpec.toJson)) =
        some contract.rules := listOf_map fun rule _ => rule.ofJson?_toJson
  have hcompound : listOf CompoundRuleSpec.ofJson?
      (.array (contract.compoundRules.map CompoundRuleSpec.toJson)) =
        some contract.compoundRules := listOf_map fun rule _ =>
          rule.ofJson?_toJson
  simp [ofJson?, toJson, members?, Json.get?, withDefault, Json.string?,
    optional_string, hbuiltin, listOf_strings, hrules, hcompound]

/-! The text of a contract -/

theorem isPlain_orNull {α : Type} {encode : α → Json}
    (hplain : ∀ a, (encode a).IsPlain) (a? : Option α) :
    (orNull encode a?).IsPlain := by
  cases a? with
  | none => exact Json.IsPlain.null
  | some a => exact hplain a

theorem ConfiguredValue.isPlain_toJson (value : ConfiguredValue) :
    value.toJson.IsPlain := by
  cases value <;> simp [toJson]

theorem CheckSpec.isPlain_toJson (spec : CheckSpec) : spec.toJson.IsPlain := by
  simp [toJson, isPlain_orNull, ConfiguredValue.isPlain_toJson]

theorem RuleSpec.isPlain_toJson (spec : RuleSpec) : spec.toJson.IsPlain := by
  simp [toJson, isPlain_orNull, CheckSpec.isPlain_toJson]

theorem CompoundRuleSpec.isPlain_toJson (spec : CompoundRuleSpec) :
    spec.toJson.IsPlain := by
  simp [toJson, AnchorSpec.toJson, CountermandSpec.toJson, isPlain_orNull,
    ConfiguredValue.isPlain_toJson]

theorem Contract.isPlain_toJson (contract : Contract) :
    contract.toJson.IsPlain := by
  simp [toJson, isPlain_orNull, RuleSpec.isPlain_toJson,
    CompoundRuleSpec.isPlain_toJson]

/-- Read a contract from a JSON text. -/
def Contract.ofJsonText? (text : String) : Option Contract :=
  (Json.read text).bind ofJson?

/-- Both ways of writing JSON values. -/
def jsonWriters : List (Json → String) :=
  [Json.compact, Json.pretty]

theorem read_of_mem_jsonWriters {write : Json → String}
    (hwrite : write ∈ jsonWriters) {json : Json} (hplain : json.IsPlain) :
    Json.read (write json) = some json := by
  simp only [jsonWriters, List.mem_cons, List.not_mem_nil, or_false] at hwrite
  rcases hwrite with rfl | rfl
  · exact Json.read_compact hplain
  · exact Json.read_pretty hplain

/-- Writing a contract and reading it again gives the same contract.  So a
contract that was read from any text means the same rules, is refused for the
same reason and leaves out the same paths after it was written and read once
more. -/
theorem contract_survives_writing {write : Json → String}
    (hwrite : write ∈ jsonWriters) :
    (∀ contract : Contract, Contract.ofJsonText? (write contract.toJson) =
      some contract) ∧
      ∀ (text : String) (contract : Contract), Contract.ofJsonText? text =
        some contract →
        ∃ reloaded, Contract.ofJsonText? (write contract.toJson) =
          some reloaded ∧
          Contract.ofJsonText? text = some reloaded ∧
          reloaded.compile = contract.compile ∧
          reloaded.validate = contract.validate ∧
          ∀ path, reloaded.excludes path = contract.excludes path := by
  have hback : ∀ contract : Contract,
      Contract.ofJsonText? (write contract.toJson) = some contract := by
    intro contract
    rw [Contract.ofJsonText?,
      read_of_mem_jsonWriters hwrite contract.isPlain_toJson, Option.bind_some,
      contract.ofJson?_toJson]
  refine ⟨hback, fun text contract htext => ?_⟩
  exact ⟨contract, hback contract, htext, rfl, rfl, fun _ => rfl⟩

namespace ReloadedContractWitness

/-- Missing members, an unknown one, a tag by its other name, a numeral as a
text, the largest word and an escaped character. -/
def text : String :=
  "\x7b \"name\" : \"r\\u00e9gles\", \"owner\": null,\n \"rules\": [\x7b\"id\": \"R\", \"checks\": [" ++
    "\x7b\"tag\": \" FORMS \", \"attribute\": \"timeout\", \"domain\": \"integer\"," ++
    "\"policy\": \"mandatory_values\", \"values\": [\"015\", 18446744073709551615]\x7d]\x7d]\x7d"

def contract : Contract where
  name := "régles"
  rules :=
    [{ id := "R"
       checks :=
        [{ tag := .forms
           attributeName := "timeout"
           domain := .integer
           policy := some .mandatoryValues
           values := [.text "015", .integer 18446744073709551615] }] }]

theorem ofJsonText?_text : Contract.ofJsonText? text = some contract := by
  decide +kernel

theorem numeral_stays_text :
    Json.pretty ∈ jsonWriters ∧ Contract.ofJsonText? text = some contract ∧
      Contract.ofJsonText? contract.toJson.pretty = some contract ∧
      ∃ reloaded, Contract.ofJsonText? contract.toJson.pretty = some reloaded ∧
        Contract.ofJsonText? text = some reloaded ∧
        reloaded.compile = contract.compile ∧
        reloaded.validate = contract.validate ∧
        ∀ path, reloaded.excludes path = contract.excludes path := by
  have hwrite : Json.pretty ∈ jsonWriters := by simp [jsonWriters]
  obtain ⟨hback, hreload⟩ := contract_survives_writing hwrite
  exact ⟨hwrite, ofJsonText?_text, hback contract,
    hreload text contract ofJsonText?_text⟩

end ReloadedContractWitness

end WebConfigAudit
