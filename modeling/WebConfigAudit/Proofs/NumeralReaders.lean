import WebConfigAudit.Proofs.ContractMeaning
import WebConfigAudit.Proofs.Spelling
/-!
Numbers are read in two places, in the values of a contract and in the values of
a document.  The two readings agree on every text but those with a plus sign
before their digits, which only a contract may have.  A rule that demands such a
number is accepted, and no way of writing its own value meets it.
-/

namespace WebConfigAudit

/-- The number that the text of a value in a document stands for, quotes and
blanks taken off. -/
def documentNumber? (text : String) : Option UInt64 :=
  Text.readDecimal (Text.trimChars text.toList)

/-- Whether the text, trimmed, is a numeral after a plus sign. -/
def isSignedNumeral (text : String) : Bool :=
  match Text.trimChars text.toList with
  | '+' :: digits => (Text.readDecimal digits).isSome
  | _ => false

/-- The check demands one number, which is configured as a text. -/
structure CheckSpec.DemandsNumber (spec : CheckSpec) (text : String) :
    Prop where
  domain : spec.domain = .integer
  policy : spec.policy = some .mandatoryValue
  value : spec.value = some (.text text)

/-- The node is an element of the kind, and the attribute that the name stands
for has the text as its value, in quotes. -/
structure Node.Writes (node : Node) (tag : Tag) (name text : String) :
    Prop where
  kind : node.kind = .element tag
  value : ∃ found mark, node.namedAttribute? name = .ok (some found) ∧
    isQuoteMark mark = true ∧
    found.value.text.toList = mark :: text.toList ++ [mark]

theorem Text.readDecimal_plus (digits : List Char) :
    Text.readDecimal ('+' :: digits) = none := by
  have hplus : Text.isDigit '+' = false := by decide
  simp [Text.readDecimal, hplus]

theorem isSignedNumeral_eq_true_iff {text : String} :
    isSignedNumeral text = true ↔
      ∃ digits n, Text.trimChars text.toList = '+' :: digits ∧
      Text.readDecimal digits = some n := by
  unfold isSignedNumeral
  split
  · next digits htrimmed => simp [htrimmed, Option.isSome_iff_exists]
  · next hother =>
      constructor
      · intro hfalse
        contradiction
      · rintro ⟨digits, n, htrimmed, _⟩
        exact absurd htrimmed (hother digits)

theorem documentNumber?_of_isSignedNumeral {text : String}
    (hsigned : isSignedNumeral text = true) : documentNumber? text = none := by
  obtain ⟨digits, n, htrimmed, _⟩ := isSignedNumeral_eq_true_iff.mp hsigned
  rw [documentNumber?, htrimmed, Text.readDecimal_plus]

/-- What a contract reads as a number is a numeral of documents, or one after a
plus sign. -/
theorem ConfiguredValue.asInteger?_text_iff {text : String} {n : UInt64} :
    (ConfiguredValue.text text).asInteger? = some n ↔
      documentNumber? text = some n ∨
        ∃ digits, Text.trimChars text.toList = '+' :: digits ∧
        Text.readDecimal digits = some n := by
  rw [asInteger?, documentNumber?]
  unfold Text.readSignedDecimal
  split
  · next digits htrimmed => simp [htrimmed, Text.readDecimal_plus]
  · next hother =>
      constructor
      · exact Or.inl
      · rintro (hplain | ⟨digits, htrimmed, _⟩)
        · exact hplain
        · exact absurd htrimmed (hother digits)

theorem ConfiguredValue.asInteger?_text_eq_iff (text : String) :
    (ConfiguredValue.text text).asInteger? = documentNumber? text ↔
      isSignedNumeral text = false := by
  constructor
  · intro hagree
    rw [Bool.eq_false_iff]
    intro hsigned
    obtain ⟨digits, n, htrimmed, hdigits⟩ :=
      isSignedNumeral_eq_true_iff.mp hsigned
    rw [asInteger?_text_iff.mpr (Or.inr ⟨digits, htrimmed, hdigits⟩),
      documentNumber?_of_isSignedNumeral hsigned] at hagree
    contradiction
  · intro hunsigned
    ext n
    rw [asInteger?_text_iff, or_iff_left]
    rintro ⟨digits, htrimmed, hdigits⟩
    rw [isSignedNumeral_eq_true_iff.mpr ⟨digits, n, htrimmed, hdigits⟩]
      at hunsigned
    contradiction

/-- The value token of an attribute that is written in quotes, as the checks
read it. -/
theorem AttributeMatch.readDecimal_valueText {found : AttributeMatch}
    {mark : Char} {text : String} (hmark : isQuoteMark mark = true)
    (hwritten : found.value.text.toList = mark :: text.toList ++ [mark]) :
    Text.readDecimal found.valueText.toList = documentNumber? text := by
  rw [valueText, stripQuotes, hwritten, stripQuoteMarks_quoted hmark, Text.trim,
    String.toList_ofList, String.toList_ofList, documentNumber?]

section Demand

variable {spec : CheckSpec} {text : String} (hdemand : spec.DemandsNumber text)

include hdemand

theorem CheckSpec.configured_of_demandsNumber :
    spec.configured .mandatoryValue = [.text text] := by
  rw [configured_of_single rfl, hdemand.value]
  rfl

/-- The value of a demand that is accepted is a number to contracts. -/
theorem CheckSpec.exists_number_of_compile {rule : String} {clause : Clause}
    (hcompile : spec.compile rule = .ok clause) :
    ∃ n, (ConfiguredValue.text text).asInteger? = some n := by
  obtain ⟨_, check, hcheck, _⟩ := compile_eq_ok_iff.mp hcompile
  rw [compileCheck, hdemand.domain, hdemand.policy] at hcheck
  obtain ⟨policy, hpolicy, _⟩ := map_eq_ok_iff.mp hcheck
  obtain ⟨_, _, hreads⟩ := integerPolicy_eq_ok_iff.mp hpolicy
  rw [configured_of_demandsNumber hdemand, List.forall₂_cons_left_iff] at hreads
  obtain ⟨n, _, hread, _⟩ := hreads
  exact ⟨n, hread⟩

/-- The demanded text, written in a document, meets the demand if the document's
reader takes it for the number that is demanded. -/
theorem CheckSpec.holds_iff_of_demandsNumber {n : UInt64}
    (hnumber : (ConfiguredValue.text text).asInteger? = some n)
    {found : AttributeMatch}
    (hread : Text.readDecimal found.valueText.toList = documentNumber? text) :
    spec.Holds (some found) ↔ documentNumber? text = some n := by
  have hvalue : (ConfiguredValue.text text).number? = some n.toNat := by
    rw [ConfiguredValue.number?_eq, hnumber, Option.map_some]
  have hnumbers : spec.numbers .mandatoryValue = [n.toNat] := by
    simp [numbers, configured_of_demandsNumber hdemand, hvalue]
  have hnumeral : Text.numeral? found.said =
      (documentNumber? text).map UInt64.toNat := by
    rw [Text.numeral?_eq, ← found.toList_valueText, hread]
  simp [Holds, hdemand.domain, hdemand.policy, hnumeral, PolicyName.Accepts,
    hnumbers, UInt64.toNat_inj]

/-- An element that has the demanded text is passed unless the text has a plus
sign. -/
theorem Clause.evaluate_of_demandsNumber {rule : String} {clause : Clause}
    (hcompile : spec.compile rule = .ok clause) {node : Node}
    (hwrites : node.Writes spec.tag spec.attributeName text) :
    clause.evaluate node =
      .ok (if isSignedNumeral text then .violation else .pass) := by
  obtain ⟨n, hnumber⟩ := CheckSpec.exists_number_of_compile hdemand hcompile
  obtain ⟨found, mark, hfound, hmark, hwritten⟩ := hwrites.value
  have hholds := CheckSpec.holds_iff_of_demandsNumber hdemand hnumber
    (AttributeMatch.readDecimal_valueText hmark hwritten)
  rw [CheckSpec.evaluate_eq_judge hcompile, CheckSpec.judge,
    if_pos hwrites.kind, hfound]
  dsimp only [Except.map]
  cases hsigned : isSignedNumeral text with
  | true =>
      rw [documentNumber?_of_isSignedNumeral hsigned] at hholds
      rw [if_neg (by simp [hholds]), if_pos rfl]
  | false =>
      rw [← hnumber, (ConfiguredValue.asInteger?_text_eq_iff text).mpr hsigned]
        at hholds
      rw [if_pos (by simp [hholds]), if_neg Bool.false_ne_true]

end Demand

/-- A rule that is nothing but a demand says of such an element what its one
clause says. -/
theorem ElementRule.evaluate_of_demandsNumber {spec : RuleSpec}
    {rule : ElementRule} {check : CheckSpec} {text : String}
    (hcompile : spec.compile = .ok rule) (hchecks : spec.checks = [check])
    (hdemand : check.DemandsNumber text) {node : Node}
    (hwrites : node.Writes check.tag check.attributeName text) :
    rule.evaluate node =
      .ok (if isSignedNumeral text then .violation else .pass) := by
  obtain ⟨_, _, clauses, hclauses, rfl⟩ :=
    RuleSpec.compile_eq_ok_iff.mp hcompile
  rw [hchecks, List.forall₂_cons_left_iff] at hclauses
  obtain ⟨clause, rest, hclause, hrest, rfl⟩ := hclauses
  obtain rfl := List.forall₂_nil_left_iff.mp hrest
  rw [evaluate, evaluateClauses,
    Clause.evaluate_of_demandsNumber hdemand hclause hwrites]
  cases isSignedNumeral text <;> rfl

/-- Contracts and documents read the same number in a text, or both read none,
unless the trimmed text is a numeral after a plus sign; such a text is a number
to contracts only.  Whoever demands the number of a text in an accepted contract
therefore gets the elements passed that have this text in quotes, but for the
signed ones, on which every such element is reported. -/
theorem numeral_readers_agree_unless_signed (text : String) :
    ((ConfiguredValue.text text).asInteger? = documentNumber? text ↔
      isSignedNumeral text = false) ∧
    (∀ n, (ConfiguredValue.text text).asInteger? = some n ↔
      documentNumber? text = some n ∨
        ∃ digits, Text.trimChars text.toList = '+' :: digits ∧
        Text.readDecimal digits = some n) ∧
    ∀ (contract : Contract) (rules : RuleSet), contract.compile = .ok rules →
      ∀ spec ∈ contract.rules, ∃ rule ∈ rules.elementRules, rule.id = spec.id ∧
        List.Forall₂ (fun check clause => ∀ node, check.DemandsNumber text →
          node.Writes check.tag check.attributeName text →
            Clause.evaluate clause node =
              .ok (if isSignedNumeral text then .violation else .pass))
          spec.checks rule.clauses ∧
        ∀ check node, spec.checks = [check] → check.DemandsNumber text →
          node.Writes check.tag check.attributeName text →
            rule.evaluate node =
              .ok (if isSignedNumeral text then .violation else .pass) := by
  refine ⟨ConfiguredValue.asInteger?_text_eq_iff text,
    fun n => ConfiguredValue.asInteger?_text_iff, ?_⟩
  intro contract rules haccepted spec hspec
  obtain ⟨_, own, _, hown, _, rfl, _⟩ := Contract.compile_eq_ok_iff.mp haccepted
  obtain ⟨rule, hrule, hcompile⟩ :=
    exists_of_mem_forall₂ (mapM_eq_ok_iff.mp hown).flip hspec
  refine ⟨rule, List.mem_append_right _ hrule,
    (RuleSpec.means_of_compile hcompile).id, ?_, ?_⟩
  · obtain ⟨_, _, clauses, hclauses, rfl⟩ :=
      RuleSpec.compile_eq_ok_iff.mp hcompile
    exact hclauses.imp fun check clause hclause node hdemand hwrites =>
      Clause.evaluate_of_demandsNumber hdemand hclause hwrites
  · intro check node hchecks hdemand hwrites
    exact ElementRule.evaluate_of_demandsNumber hcompile hchecks hdemand hwrites

namespace NumeralReadersWitness

/-- A contract that demands the number of a text. -/
def contractFor (text : String) : Contract where
  builtinRules := some false
  rules :=
    [{ id := "FixSessionTimeout"
       checks :=
        [{ tag := .sessionState, attributeName := " Timeout", domain := .integer
           policy := some .mandatoryValue, value := some (.text text) }] }]

def rulesFor (text : String) : RuleSet :=
  (contractFor text).compile.toOption.getD {}

/-- A session whose time is given as the text in quotes. -/
def sessionFor (text : String) : Node :=
  { Node.element .sessionState Span.nowhere with
    children :=
      [{ kind := .tagName, text := "sessionState", span := Span.nowhere },
       Node.statement "timeout" ("\"" ++ text ++ "\"") Span.nowhere
         Span.nowhere] }

theorem writes_sessionFor (text : String) :
    (sessionFor text).Writes .sessionState " Timeout" text where
  kind := rfl
  value := by
    refine ⟨_, '"', rfl, rfl, ?_⟩
    show ("\"" ++ text ++ "\"").toList = _
    simp

/-- Blanks and leading zeros do not count, on either side. -/
theorem unsigned_demand_is_met :
    (contractFor "\u00a0020 ").compile = .ok (rulesFor "\u00a0020 ") ∧
      (sessionFor "\u00a0020 ").Writes .sessionState " Timeout" "\u00a0020 " ∧
      (ConfiguredValue.text "\u00a0020 ").asInteger? =
        documentNumber? "\u00a0020 " ∧
      ∃ rule ∈ (rulesFor "\u00a0020 ").elementRules,
        rule.evaluate (sessionFor "\u00a0020 ") = .ok .pass := by
  obtain ⟨hagree, _, hrules⟩ := numeral_readers_agree_unless_signed "\u00a0020 "
  have hcompile : (contractFor "\u00a0020 ").compile =
      .ok (rulesFor "\u00a0020 ") := by
    decide +kernel
  have hunsigned : isSignedNumeral "\u00a0020 " = false := by decide +kernel
  obtain ⟨rule, hrule, _, _, hjudge⟩ := hrules _ _ hcompile _ List.mem_cons_self
  have hpass := hjudge _ _ rfl ⟨rfl, rfl, rfl⟩ (writes_sessionFor "\u00a0020 ")
  rw [hunsigned] at hpass
  exact ⟨hcompile, writes_sessionFor _, hagree.mpr hunsigned, rule,
    hrule, hpass⟩

/-- A plus sign makes a demand that its own text does not meet. -/
theorem signed_demand_is_not_met :
    (ConfiguredValue.text "+20").asInteger? = some 20 ∧
      documentNumber? "+20" = none ∧
      (contractFor "+20").compile = .ok (rulesFor "+20") ∧
      (sessionFor "+20").Writes .sessionState " Timeout" "+20" ∧
      ∃ rule, (rulesFor "+20").elementRules = [rule] ∧
        rule.evaluate (sessionFor "+20") = .ok .violation := by
  refine ⟨by decide +kernel, by decide +kernel, by decide +kernel,
    writes_sessionFor "+20",
    ⟨"FixSessionTimeout", none,
      [.of .sessionState "Timeout" (.integer (.mandatoryValue 20))]⟩, ?_, ?_⟩
  · decide +kernel
  · decide +kernel

end NumeralReadersWitness

end WebConfigAudit
