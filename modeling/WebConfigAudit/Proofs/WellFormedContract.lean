import WebConfigAudit.Proofs.AcceptedContract
import WebConfigAudit.Proofs.ConfiguredValues
/-!
Which contracts mean a rule set.  A contract is compiled exactly when every
check in it can be expressed, its names are given and known, and no two rules of
the result have the same name.
-/

namespace WebConfigAudit

namespace CheckSpec

/-- Whether a policy over integers has numbers to compare with. -/
def HasNumbers (spec : CheckSpec) (policy : PolicyName) : Prop :=
  if policy.takesSeveral = true ∧ spec.values ≠ [] then
    ∀ value ∈ spec.values, value.asInteger?.isSome = true
  else ∃ value ∈ spec.value, value.asInteger?.isSome = true

/-- Whether a policy over texts has texts to compare with. -/
def HasTexts (spec : CheckSpec) (policy : PolicyName) : Prop :=
  spec.value.isSome = true ∨ policy.takesSeveral = true ∧ spec.values ≠ []

/-- Whether a check can mean the domain, the policy and the values it names. -/
def IsExpressible (spec : CheckSpec) : Prop :=
  spec.domain = .presence ∧
      (spec.policy = none ∨ spec.policy = some .mandatoryValue ∨
        spec.policy = some .mandatoryValues) ∨
    spec.domain = .integer ∧ (∃ policy ∈ spec.policy, spec.HasNumbers policy) ∨
    spec.domain = .string ∧
      ∃ policy ∈ spec.policy, policy ≠ .maxValue ∧ policy ≠ .minValue ∧
      spec.HasTexts policy

/-- A check that can be compiled. -/
structure WellFormed (spec : CheckSpec) : Prop where
  attributeName : Text.isBlankText spec.attributeName = false
  expressible : spec.IsExpressible

variable {spec : CheckSpec} {rule : String} {policy : PolicyName}

theorem hasNumbers_iff :
    spec.HasNumbers policy ↔
      spec.configured policy ≠ [] ∧
        ∀ value ∈ spec.configured policy, value.asInteger?.isSome = true := by
  unfold HasNumbers configured
  by_cases hlist : policy.takesSeveral = true ∧ spec.values ≠ []
  · obtain ⟨hseveral, hvalues⟩ := hlist
    simp [hseveral, hvalues]
  · rw [if_neg hlist, if_neg (by simpa using hlist)]
    cases spec.value with
    | none => simp
    | some value => simp

theorem hasTexts_iff : spec.HasTexts policy ↔ spec.configured policy ≠ [] := by
  unfold HasTexts configured
  by_cases hlist : policy.takesSeveral = true ∧ spec.values ≠ []
  · obtain ⟨hseveral, hvalues⟩ := hlist
    simp [hseveral, hvalues]
  · rw [if_neg (by simpa using hlist), or_iff_left hlist]
    cases spec.value with
    | none => simp
    | some value => simp

/-- A policy over integers is compiled when it has numbers; which policy it is
does not matter. -/
theorem exists_integerPolicy_iff (rule : String) :
    (∃ compiled, spec.integerPolicy rule policy = .ok compiled) ↔
      spec.HasNumbers policy := by
  simp only [integerPolicy_eq_ok_iff, hasNumbers_iff]
  constructor
  · rintro ⟨compiled, _, hne, hreads⟩
    refine ⟨hne, fun value hvalue => ?_⟩
    exact Option.isSome_iff_exists.mpr
      (exists_forall₂_iff.mp ⟨_, hreads⟩ value hvalue)
  · rintro ⟨hne, hnumbers⟩
    obtain ⟨numbers, hreads⟩ : ∃ numbers,
        List.Forall₂ ConfiguredValue.Reads (spec.configured policy) numbers :=
      exists_forall₂_iff.mpr fun value hvalue =>
        Option.isSome_iff_exists.mp (hnumbers value hvalue)
    have hcount : policy.takesSeveral = true ∨ numbers.length = 1 :=
      hreads.length_eq ▸ length_configured hne
    obtain ⟨compiled, hname, rfl⟩ := IntegerPolicy.exists_of_name hcount
    exact ⟨compiled, hname, hne, hreads⟩

/-- A policy over texts is compiled when it is no bound and has texts. -/
theorem exists_stringPolicy_iff (rule : String) :
    (∃ compiled, spec.stringPolicy rule policy = .ok compiled) ↔
      policy ≠ .maxValue ∧ policy ≠ .minValue ∧ spec.HasTexts policy := by
  simp only [stringPolicy_eq_ok_iff, hasTexts_iff]
  constructor
  · rintro ⟨compiled, rfl, hne, _⟩
    refine ⟨?_, ?_, hne⟩
    · cases compiled <;> simp [StringPolicy.name]
    · cases compiled <;> simp [StringPolicy.name]
  · rintro ⟨hmax, hmin, hne⟩
    have hcount : policy.takesSeveral = true ∨
        ((spec.configured policy).map ConfiguredValue.asText).length = 1 := by
      rw [List.length_map]
      exact length_configured hne
    obtain ⟨compiled, hname, htexts⟩ :=
      StringPolicy.exists_of_name hmax hmin hcount
    exact ⟨compiled, hname, hne, htexts.symm⟩

theorem exists_compileCheck_iff :
    (∃ check, spec.compileCheck rule = .ok check) ↔ spec.IsExpressible := by
  unfold compileCheck IsExpressible
  cases hdomain : spec.domain with
  | presence =>
      cases hpolicy : spec.policy with
      | none => simp
      | some policy => cases policy <;> simp
  | integer =>
      cases hpolicy : spec.policy with
      | none => simp
      | some policy => simp [map_eq_ok_iff, ← exists_integerPolicy_iff rule]
  | string =>
      cases hpolicy : spec.policy with
      | none => simp
      | some policy => simp [map_eq_ok_iff, ← exists_stringPolicy_iff rule]

theorem exists_compile_iff :
    (∃ clause, spec.compile rule = .ok clause) ↔ spec.WellFormed := by
  have hcheck : (∃ clause, spec.compile rule = .ok clause) ↔
      Text.isBlankText spec.attributeName = false ∧
        ∃ check, spec.compileCheck rule = .ok check := by
    simp only [compile_eq_ok_iff]
    simp
  rw [hcheck, exists_compileCheck_iff]
  exact ⟨fun ⟨hname, hexpressible⟩ => ⟨hname, hexpressible⟩,
    fun hspec => ⟨hspec.attributeName, hspec.expressible⟩⟩

end CheckSpec

/-- A rule on single elements that can be compiled. -/
structure RuleSpec.WellFormed (spec : RuleSpec) : Prop where
  id : Text.isBlankText spec.id = false
  checks_ne_nil : spec.checks ≠ []
  checks : ∀ check ∈ spec.checks, check.WellFormed

theorem RuleSpec.exists_compile_iff {spec : RuleSpec} :
    (∃ rule, spec.compile = .ok rule) ↔ spec.WellFormed := by
  have hchecks : (∃ clauses, List.Forall₂ (fun (check : CheckSpec) clause =>
        check.compile spec.id = .ok clause) spec.checks clauses) ↔
      ∀ check ∈ spec.checks, check.WellFormed := by
    simp only [exists_forall₂_iff, CheckSpec.exists_compile_iff]
  constructor
  · rintro ⟨rule, hrule⟩
    obtain ⟨hid, hne, clauses, hclauses, _⟩ := compile_eq_ok_iff.mp hrule
    exact ⟨hid, hne, hchecks.mp ⟨clauses, hclauses⟩⟩
  · intro hspec
    obtain ⟨clauses, hclauses⟩ := hchecks.mpr hspec.checks
    exact ⟨_, compile_eq_ok_iff.mpr ⟨hspec.id, hspec.checks_ne_nil, clauses,
      hclauses, rfl⟩⟩

theorem RuleSpec.id_of_compile {spec : RuleSpec} {rule : ElementRule}
    (hcompile : spec.compile = .ok rule) : rule.id = spec.id := by
  obtain ⟨_, _, clauses, _, rfl⟩ := compile_eq_ok_iff.mp hcompile
  rfl

/-- A rule on two elements that can be compiled. -/
structure CompoundRuleSpec.WellFormed (spec : CompoundRuleSpec) : Prop where
  id : Text.isBlankText spec.id = false
  anchor : Text.isBlankText spec.anchor.attributeName = false
  countermand : Text.isBlankText spec.countermand.attributeName = false

theorem CompoundRuleSpec.exists_compile_iff {spec : CompoundRuleSpec} :
    (∃ rule, spec.compile = .ok rule) ↔ spec.WellFormed := by
  constructor
  · rintro ⟨rule, hrule⟩
    obtain ⟨hid, hanchor, hcountermand, _⟩ := compile_eq_ok_iff.mp hrule
    exact ⟨hid, hanchor, hcountermand⟩
  · intro hspec
    exact ⟨_, compile_eq_ok_iff.mpr ⟨hspec.id, hspec.anchor,
      hspec.countermand, rfl⟩⟩

theorem CompoundRuleSpec.id_of_compile {spec : CompoundRuleSpec}
    {rule : CompoundRule} (hcompile : spec.compile = .ok rule) :
    rule.id = spec.id := by
  obtain ⟨_, _, _, rfl⟩ := compile_eq_ok_iff.mp hcompile
  rfl

namespace Contract

variable (contract : Contract)

/-- Those of the given built-in names that the contract leaves on. -/
def leftOn (ids : List String) : List String :=
  if contract.usesBuiltinRules then ids.filter (· ∉ contract.disabledRules)
  else []

/-- The names of the rules that the contract means, in the order of the rules:
on single elements the built-in ones and then its own, and in the same way on
two elements. -/
def ruleIds : List String :=
  contract.leftOn (Builtin.rules.elementRules.map ElementRule.id) ++
    contract.rules.map RuleSpec.id ++
    (contract.leftOn (Builtin.rules.compoundRules.map CompoundRule.id) ++
      contract.compoundRules.map CompoundRuleSpec.id)

/-- A contract that means a rule set. -/
structure WellFormed : Prop where
  disabled_known : ∀ id ∈ contract.disabledRules, id ∈ Builtin.rules.ids
  rules : ∀ spec ∈ contract.rules, spec.WellFormed
  compoundRules : ∀ spec ∈ contract.compoundRules, spec.WellFormed
  ids_nodup : contract.ruleIds.Nodup

theorem leftOn_elementRules :
    contract.builtinPart.elementRules.map ElementRule.id =
      contract.leftOn (Builtin.rules.elementRules.map ElementRule.id) := by
  unfold builtinPart leftOn
  by_cases hbuiltin : contract.usesBuiltinRules = true
  · simp [hbuiltin, List.filter_map, Function.comp_def]
  · simp [hbuiltin]

theorem leftOn_compoundRules :
    contract.builtinPart.compoundRules.map CompoundRule.id =
      contract.leftOn (Builtin.rules.compoundRules.map CompoundRule.id) := by
  unfold builtinPart leftOn
  by_cases hbuiltin : contract.usesBuiltinRules = true
  · simp [hbuiltin, List.filter_map, Function.comp_def]
  · simp [hbuiltin]

variable {contract} {own : List ElementRule} {ownCompound : List CompoundRule}

/-- The names of compiled rules are read off the contract. -/
theorem ids_of_mapM_compile
    (hown : contract.rules.mapM RuleSpec.compile = .ok own)
    (hcompound : contract.compoundRules.mapM CompoundRuleSpec.compile =
      .ok ownCompound) :
    (⟨contract.builtinPart.elementRules ++ own,
      contract.builtinPart.compoundRules ++ ownCompound⟩ : RuleSet).ids =
        contract.ruleIds := by
  have hids : own.map ElementRule.id = contract.rules.map RuleSpec.id :=
    map_eq_of_forall₂ (fun _ _ hrule => RuleSpec.id_of_compile hrule)
      (mapM_eq_ok_iff.mp hown)
  have hcompoundIds : ownCompound.map CompoundRule.id =
      contract.compoundRules.map CompoundRuleSpec.id :=
    map_eq_of_forall₂ (fun _ _ hrule => CompoundRuleSpec.id_of_compile hrule)
      (mapM_eq_ok_iff.mp hcompound)
  simp only [RuleSet.ids, List.map_append, leftOn_elementRules,
    leftOn_compoundRules, hids, hcompoundIds, ruleIds]

end Contract

/-- The contracts that are accepted are the well-formed ones, and the names of
the rules that result are those that the contract gives, the built-in ones first
within each sort. -/
theorem compile_accepts_wellFormed (contract : Contract) :
    ((∃ rules, contract.compile = .ok rules) ↔ contract.WellFormed) ∧
      ∀ rules, contract.compile = .ok rules → rules.ids = contract.ruleIds := by
  have hrules : (∃ own, contract.rules.mapM RuleSpec.compile = .ok own) ↔
      ∀ spec ∈ contract.rules, spec.WellFormed := by
    simp only [mapM_eq_ok_iff, exists_forall₂_iff, RuleSpec.exists_compile_iff]
  have hcompoundRules :
      (∃ ownCompound, contract.compoundRules.mapM CompoundRuleSpec.compile =
        .ok ownCompound) ↔
        ∀ spec ∈ contract.compoundRules, spec.WellFormed := by
    simp only [mapM_eq_ok_iff, exists_forall₂_iff,
      CompoundRuleSpec.exists_compile_iff]
  refine ⟨⟨?_, ?_⟩, ?_⟩
  · rintro ⟨rules, haccepted⟩
    obtain ⟨hknown, own, ownCompound, hown, hcompound, rfl, hnodup⟩ :=
      Contract.compile_eq_ok_iff.mp haccepted
    rw [Contract.ids_of_mapM_compile hown hcompound] at hnodup
    exact ⟨hknown, hrules.mp ⟨own, hown⟩,
      hcompoundRules.mp ⟨ownCompound, hcompound⟩, hnodup⟩
  · intro hwell
    obtain ⟨own, hown⟩ := hrules.mpr hwell.rules
    obtain ⟨ownCompound, hcompound⟩ := hcompoundRules.mpr hwell.compoundRules
    refine ⟨_, Contract.compile_eq_ok_iff.mpr
      ⟨hwell.disabled_known, own, ownCompound, hown, hcompound, rfl, ?_⟩⟩
    rw [Contract.ids_of_mapM_compile hown hcompound]
    exact hwell.ids_nodup
  · intro rules haccepted
    obtain ⟨_, own, ownCompound, hown, hcompound, rfl, _⟩ :=
      Contract.compile_eq_ok_iff.mp haccepted
    exact Contract.ids_of_mapM_compile hown hcompound

namespace WellFormedContractWitness

/-- One rule of each sort besides the built-in ones, of which one is switched
off. -/
def contract : Contract where
  disabledRules := ["AvoidElmahEnabledInProduction"]
  rules :=
    [{ id := "LimitRequests"
       checks :=
        [{ tag := .httpRuntime, attributeName := "maxRequestLength",
           domain := .integer
           policy := some .mandatoryValues,
           values := [.integer 4096, .text " +8192"] },
         { tag := .httpRuntime, attributeName := "executionTimeout",
           domain := .presence }] }]
  compoundRules :=
    [{ id := "AvoidRemoteTrace"
       anchor := { tag := .trace, attributeName := "enabled" }
       countermand := { tag := .trace, attributeName := "localOnly",
                        value := .text "true" } }]

/-- The rules that the contract means. -/
def rules : RuleSet := contract.compile.toOption.getD {}

theorem compile_contract : contract.compile = .ok rules := by decide +kernel

theorem contract_of_both_sorts_is_wellFormed :
    contract.compile = .ok rules ∧ contract.WellFormed ∧
      rules.ids = contract.ruleIds := by
  obtain ⟨haccepted_iff, hids⟩ := compile_accepts_wellFormed contract
  exact ⟨compile_contract, haccepted_iff.mp ⟨rules, compile_contract⟩,
    hids rules compile_contract⟩

example : contract.ruleIds =
    ["EnsureCookielessAreSetToUseCookies",
      "AvoidInsufficientSessionExpirationInConfigFile", "LimitRequests",
      "AvoidRemoteTrace"] := by
  decide +kernel

end WellFormedContractWitness

end WebConfigAudit
