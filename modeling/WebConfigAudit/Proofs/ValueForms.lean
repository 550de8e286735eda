import WebConfigAudit.Proofs.ConfiguredValues
import WebConfigAudit.Proofs.DecimalDigits
/-!
The form in which a contract gives its values.  A number may be written as the
text of its digits, and a lone value as a list of one for a policy that compares
with several.  Whichever form is chosen, the contract means the same rules, or
is refused for the same reason.
-/

namespace WebConfigAudit

/-- The same value, or a number and the text of its decimal digits. -/
inductive ConfiguredValue.Rewritten :
    ConfiguredValue → ConfiguredValue → Prop where
  | same (value : ConfiguredValue) : Rewritten value value
  | numeral (n : UInt64) : Rewritten (.integer n) (.text (Text.decimal n.toNat))

/-- A check with its values in another form.  Either values are written as
texts, or the lone value of a policy that compares with several is listed. -/
inductive CheckSpec.Rewritten (spec : CheckSpec) : CheckSpec → Prop where
  | values (value? : Option ConfiguredValue) (values : List ConfiguredValue)
      (hvalue : Option.Rel ConfiguredValue.Rewritten spec.value value?)
      (hvalues : List.Forall₂ ConfiguredValue.Rewritten spec.values values) :
      spec.Rewritten { spec with value := value?, values := values }
  | listed (policy : PolicyName) (value written : ConfiguredValue)
      (value? : Option ConfiguredValue) (hpolicy : spec.policy = some policy)
      (hseveral : policy.takesSeveral = true) (hvalues : spec.values = [])
      (hvalue : spec.value = some value) (hwritten : value.Rewritten written) :
      spec.Rewritten { spec with value := value?, values := [written] }

/-- A rule with the values of its checks in another form. -/
structure RuleSpec.Rewritten (spec other : RuleSpec) : Prop where
  id : other.id = spec.id
  description : other.description = spec.description
  checks : List.Forall₂ CheckSpec.Rewritten spec.checks other.checks

/-- A rule on two elements with the values of its anchor and its countermand in
another form. -/
structure CompoundRuleSpec.Rewritten (spec other : CompoundRuleSpec) :
    Prop where
  same : other = { spec with
    anchor := { spec.anchor with values := other.anchor.values }
    countermand := { spec.countermand with value := other.countermand.value } }
  affirmative : List.Forall₂ ConfiguredValue.Rewritten spec.anchor.values
    other.anchor.values
  countermand : spec.countermand.value.Rewritten other.countermand.value

/-- A contract with any of the values in its rules in another form. -/
structure Contract.Rewritten (contract other : Contract) : Prop where
  same : other =
    { contract with rules := other.rules, compoundRules := other.compoundRules }
  rules : List.Forall₂ RuleSpec.Rewritten contract.rules other.rules
  compoundRules :
    List.Forall₂ CompoundRuleSpec.Rewritten contract.compoundRules
      other.compoundRules

namespace ConfiguredValue

variable {value written : ConfiguredValue}

theorem Rewritten.asText_eq (hwritten : value.Rewritten written) :
    written.asText = value.asText := by
  cases hwritten <;> rfl

/-- The digits of a number of sixty-four bits are read back as the number. -/
theorem asInteger?_decimal (n : UInt64) :
    (ConfiguredValue.text (Text.decimal n.toNat)).asInteger? = some n := by
  have hdigits := Text.denotes_decimalDigits n.toNat
  have hread : Text.readSignedDecimal (Text.decimalDigits n.toNat) =
      Text.readDecimal (Text.decimalDigits n.toNat) := by
    unfold Text.readSignedDecimal
    split
    · next digits hplus =>
        have hdigit : Text.isDigit '+' = true :=
          hdigits.isDigit_of_mem (hplus ▸ List.mem_cons_self)
        contradiction
    · rfl
  have hsmall : n.toNat < UInt64.size := n.toNat_lt
  rw [asInteger?, Text.decimal, String.toList_ofList,
    hdigits.trimChars_eq, hread, hdigits.readDecimal_eq, Text.wordOfNat?,
    if_pos hsmall, UInt64.ofNat_toNat]

theorem Rewritten.asInteger?_eq (hwritten : value.Rewritten written) :
    written.asInteger? = value.asInteger? := by
  cases hwritten with
  | same => rfl
  | numeral n => exact asInteger?_decimal n

theorem map_asText_eq {values others : List ConfiguredValue}
    (hvalues : List.Forall₂ Rewritten values others) :
    others.map asText = values.map asText :=
  map_eq_of_forall₂ (fun _ _ hwritten => hwritten.asText_eq) hvalues

end ConfiguredValue

namespace CheckSpec

variable {spec other : CheckSpec} {policy : PolicyName}

theorem integerOf_eq (rule : String) {value written : ConfiguredValue}
    (hwritten : value.Rewritten written) :
    integerOf rule written = integerOf rule value := by
  rw [integerOf, integerOf, hwritten.asInteger?_eq, hwritten.asText_eq]

/-- What the policy of a check compares with is the same in both forms, each
value for itself. -/
theorem Rewritten.configured (hwritten : spec.Rewritten other)
    (hpolicy : spec.policy = some policy) :
    List.Forall₂ ConfiguredValue.Rewritten (spec.configured policy)
      (other.configured policy) := by
  cases hwritten with
  | values value? values hvalue hvalues =>
      have hempty : values.isEmpty = spec.values.isEmpty := by
        generalize spec.values = given at hvalues
        cases hvalues <;> rfl
      have hlone : List.Forall₂ ConfiguredValue.Rewritten spec.value.toList
          value?.toList := by
        generalize spec.value = given? at hvalue
        cases hvalue with
        | none => exact List.Forall₂.nil
        | some hvalue => exact List.Forall₂.cons hvalue List.Forall₂.nil
      unfold CheckSpec.configured
      dsimp only
      rw [hempty]
      split
      · exact hvalues
      · exact hlone
  | listed named value written value? hnamed hseveral hvalues hvalue hwritten =>
      obtain rfl : named = policy := Option.some.inj (hnamed.symm.trans hpolicy)
      have hone : List.Forall₂ ConfiguredValue.Rewritten [value] [written] :=
        List.Forall₂.cons hwritten List.Forall₂.nil
      simpa [CheckSpec.configured, hseveral, hvalues, hvalue] using hone

theorem several_eq {rule : String} (hseveral : policy.takesSeveral = true) :
    spec.several rule policy =
      if (spec.configured policy).isEmpty then
        .error (.missingValue rule policy)
      else .ok (spec.configured policy) := by
  simp only [several, CheckSpec.configured, hseveral, Bool.true_and]
  cases hvalues : spec.values with
  | nil => cases spec.value <;> rfl
  | cons head tail => rfl

section Values

variable
  (hvalues : List.Forall₂ ConfiguredValue.Rewritten (spec.configured policy)
    (other.configured policy))

include hvalues

/-- A step that takes the lone value of a check in either form. -/
theorem bind_single_eq {α : Type} (rule : String)
    {f : ConfiguredValue → Except ContractError α}
    (hsame : ∀ value written, value.Rewritten written → f written = f value)
    (hone : policy.takesSeveral = false) :
    other.single rule policy >>= f = spec.single rule policy >>= f := by
  rw [configured_of_single hone, configured_of_single hone] at hvalues
  unfold single
  cases hvalue : spec.value with
  | none =>
      cases hother : other.value with
      | none => rfl
      | some written =>
          rw [hvalue, hother] at hvalues
          cases hvalues
  | some value =>
      cases hother : other.value with
      | none =>
          rw [hvalue, hother] at hvalues
          cases hvalues
      | some written =>
          rw [hvalue, hother] at hvalues
          cases hvalues with
          | cons hwritten _ => exact hsame value written hwritten

/-- A step that takes the values of a check in either form. -/
theorem bind_several_eq {α : Type} (rule : String)
    {f : List ConfiguredValue → Except ContractError α}
    (hsame : ∀ values others, List.Forall₂ ConfiguredValue.Rewritten values
      others → f others = f values)
    (hseveral : policy.takesSeveral = true) :
    other.several rule policy >>= f = spec.several rule policy >>= f := by
  rw [several_eq hseveral, several_eq hseveral]
  have hlength := hvalues.length_eq
  have hboth := hsame _ _ hvalues
  generalize spec.configured policy = values at hvalues hboth ⊢
  generalize other.configured policy = others at hvalues hboth ⊢
  cases hvalues with
  | nil => rfl
  | cons hhead hrest => exact hboth

/-- The numbers that a policy compares with do not depend on the form. -/
theorem integerPolicy_eq (rule : String) :
    other.integerPolicy rule policy = spec.integerPolicy rule policy := by
  have hsame (value written : ConfiguredValue)
        (hwritten : value.Rewritten written) :
      integerOf rule written = integerOf rule value :=
    integerOf_eq rule hwritten
  have hone := bind_single_eq hvalues rule hsame
  have hmany := bind_several_eq hvalues rule fun _ _ => mapM_eq_of_forall₂ hsame
  unfold integerPolicy
  cases policy with
  | mandatoryValue => simp only [hone rfl]
  | mandatoryValues => simp only [hmany rfl]
  | forbiddenValue => simp only [hone rfl]
  | forbiddenValues => simp only [hmany rfl]
  | maxValue => simp only [hone rfl]
  | minValue => simp only [hone rfl]

/-- Nor do the texts that it compares with. -/
theorem stringPolicy_eq (rule : String) (hdomain : other.domain = spec.domain) :
    other.stringPolicy rule policy = spec.stringPolicy rule policy := by
  have hone := bind_single_eq hvalues rule (f := fun value => pure value.asText)
    fun _ _ hwritten => by rw [hwritten.asText_eq]
  have hmany := bind_several_eq hvalues rule
    (f := fun values => pure (values.map ConfiguredValue.asText))
    fun _ _ hwritten => by rw [ConfiguredValue.map_asText_eq hwritten]
  unfold stringPolicy
  cases policy with
  | mandatoryValue => simp only [hone rfl]
  | mandatoryValues => simp only [hmany rfl]
  | forbiddenValue => simp only [hone rfl]
  | forbiddenValues => simp only [hmany rfl]
  | maxValue => simp only [hdomain]
  | minValue => simp only [hdomain]

end Values

/-- A check means the same in both forms. -/
theorem Rewritten.compile_eq (hwritten : spec.Rewritten other) (rule : String) :
    other.compile rule = spec.compile rule := by
  have hconfigured {policy : PolicyName}
      (hpolicy : spec.policy = some policy) :=
    hwritten.configured hpolicy
  obtain ⟨htag, hname, hdomain, hpolicy⟩ : other.tag = spec.tag ∧
      other.attributeName = spec.attributeName ∧ other.domain = spec.domain ∧
      other.policy = spec.policy := by
    cases hwritten <;> exact ⟨rfl, rfl, rfl, rfl⟩
  have hcheck : other.compileCheck rule = spec.compileCheck rule := by
    unfold compileCheck
    rw [htag, hname, hdomain, hpolicy]
    cases hnamed : spec.policy with
    | none => cases spec.domain <;> rfl
    | some policy =>
        cases hread : spec.domain with
        | presence => cases policy <;> rfl
        | integer => simp only [integerPolicy_eq (hconfigured hnamed) rule]
        | string =>
            simp only [stringPolicy_eq (hconfigured hnamed) rule hdomain]
  rw [compile, compile, hcheck, htag, hname]

end CheckSpec

theorem RuleSpec.Rewritten.compile_eq {spec other : RuleSpec}
    (hwritten : spec.Rewritten other) : other.compile = spec.compile := by
  have hempty : other.checks.isEmpty = spec.checks.isEmpty := by
    have hchecks := hwritten.checks
    generalize spec.checks = checks at hchecks
    generalize other.checks = others at hchecks
    cases hchecks <;> rfl
  have hclauses :
      (other.checks.mapM fun (check : CheckSpec) => check.compile spec.id) =
        spec.checks.mapM fun (check : CheckSpec) => check.compile spec.id :=
    mapM_eq_of_forall₂ (fun _ _ hcheck => hcheck.compile_eq spec.id)
      hwritten.checks
  rw [compile, compile, hwritten.id, hwritten.description, hempty, hclauses]

theorem CompoundRuleSpec.Rewritten.compile_eq {spec other : CompoundRuleSpec}
    (hwritten : spec.Rewritten other) : other.compile = spec.compile := by
  rw [hwritten.same]
  unfold compile
  dsimp only
  rw [ConfiguredValue.map_asText_eq hwritten.affirmative,
    hwritten.countermand.asText_eq]

/-- A contract means the same rules in whichever form its values are given,
numbers as texts of their digits and lone values as lists of one, or it is
refused for the same reason. -/
theorem compile_ignores_value_forms {contract other : Contract}
    (hwritten : contract.Rewritten other) :
    other.compile = contract.compile := by
  have hrules : other.rules.mapM RuleSpec.compile =
      contract.rules.mapM RuleSpec.compile :=
    mapM_eq_of_forall₂ (fun _ _ hrule => hrule.compile_eq) hwritten.rules
  have hcompound : other.compoundRules.mapM CompoundRuleSpec.compile =
      contract.compoundRules.mapM CompoundRuleSpec.compile :=
    mapM_eq_of_forall₂ (fun _ _ hrule => hrule.compile_eq)
      hwritten.compoundRules
  have hbuiltin : other.builtinPart = contract.builtinPart := by
    rw [hwritten.same]
    rfl
  have hdisabled : other.disabledRules = contract.disabledRules := by
    rw [hwritten.same]
  rw [Contract.compile, Contract.compile, hrules, hcompound, hbuiltin,
    hdisabled]

namespace ValueFormsWitness

/-- Numbers wherever a contract may have them, and a lone value where several
are meant. -/
def contract : Contract where
  rules :=
    [{ id := "LimitRequests"
       checks :=
        [{ tag := .httpRuntime, attributeName := "maxRequestLength",
           domain := .integer
           policy := some .mandatoryValues, value := some (.integer 4096) },
         { tag := .httpRuntime, attributeName := "executionTimeout",
           domain := .string
           policy := some .forbiddenValues,
           values := [.integer 0, .text "never"] }] }]
  compoundRules :=
    [{ id := "AvoidRemoteTrace"
       anchor := { tag := .trace, attributeName := "enabled" }
       countermand := { tag := .trace, attributeName := "localOnly",
                        value := .integer 1 } }]

/-- The same with texts, and with the lone value in a list. -/
def other : Contract where
  rules :=
    [{ id := "LimitRequests"
       checks :=
        [{ tag := .httpRuntime, attributeName := "maxRequestLength",
           domain := .integer
           policy := some .mandatoryValues, values := [.text "4096"] },
         { tag := .httpRuntime, attributeName := "executionTimeout",
           domain := .string
           policy := some .forbiddenValues,
           values := [.text "0", .text "never"] }] }]
  compoundRules :=
    [{ id := "AvoidRemoteTrace"
       anchor := { tag := .trace, attributeName := "enabled",
                   values := [.text "true", .text "1"] }
       countermand := { tag := .trace, attributeName := "localOnly",
                        value := .text "1" } }]

theorem rewritten_contract : contract.Rewritten other where
  same := rfl
  rules := by
    refine List.Forall₂.cons
      ⟨rfl, rfl, List.Forall₂.cons ?_ (List.Forall₂.cons ?_ .nil)⟩ .nil
    · exact .listed .mandatoryValues (.integer 4096) _ none rfl rfl rfl rfl
        (.numeral 4096)
    · exact .values none _ .none (.cons (.numeral 0) (.cons (.same _) .nil))
  compoundRules := by
    refine List.Forall₂.cons ⟨rfl, ?_, .numeral 1⟩ .nil
    exact .cons (.same _) (.cons (.numeral 1) .nil)

/-- The contracts mean the same rules; with an unknown rule switched off they
are refused alike. -/
theorem both_forms_mean_the_same :
    contract.Rewritten other ∧ other.compile = contract.compile ∧
      contract.compile.isOk = true ∧
      ({ contract with disabledRules := ["LimitRequests"] } :
        Contract).Rewritten
        { other with disabledRules := ["LimitRequests"] } ∧
      ({ other with disabledRules := ["LimitRequests"] } : Contract).compile =
        .error (.unknownDisabledRule "LimitRequests") := by
  have hrefused :
      ({ contract with disabledRules := ["LimitRequests"] } :
        Contract).Rewritten
        { other with disabledRules := ["LimitRequests"] } :=
    ⟨rfl, rewritten_contract.rules, rewritten_contract.compoundRules⟩
  refine ⟨rewritten_contract, compile_ignores_value_forms rewritten_contract,
    ?_, hrefused, ?_⟩
  · decide +kernel
  · rw [compile_ignores_value_forms hrefused]
    decide +kernel

end ValueFormsWitness

end WebConfigAudit
