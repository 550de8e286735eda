import WebConfigAudit.Contract.Compile
import WebConfigAudit.Proofs.Fallible
/-!
Which values a check is compiled with.  A policy about one value takes the lone
value of the check; a policy about several takes the list, or the lone value if
the list is empty.
-/

namespace WebConfigAudit

/-- Whether a policy compares with a list of values. -/
def PolicyName.takesSeveral : PolicyName → Bool
  | .mandatoryValues => true
  | .forbiddenValues => true
  | _ => false

namespace CheckSpec

/-- The values that a policy of the check compares with. -/
def configured (spec : CheckSpec) (policy : PolicyName) :
    List ConfiguredValue :=
  if policy.takesSeveral && !spec.values.isEmpty then spec.values
  else spec.value.toList

variable {spec : CheckSpec} {rule : String} {policy : PolicyName}

theorem configured_of_single (hone : policy.takesSeveral = false) :
    spec.configured policy = spec.value.toList := by
  simp [configured, hone]

/-- A policy about one value finds no more than one. -/
theorem length_configured (hne : spec.configured policy ≠ []) :
    policy.takesSeveral = true ∨ (spec.configured policy).length = 1 := by
  cases hone : policy.takesSeveral with
  | true => exact Or.inl rfl
  | false =>
      right
      rw [configured_of_single hone] at hne ⊢
      cases hvalue : spec.value with
      | none => simp [hvalue] at hne
      | some value => rfl

theorem single_eq_ok_iff {value : ConfiguredValue} :
    spec.single rule policy = .ok value ↔ spec.value = some value := by
  unfold single
  cases spec.value <;> simp

theorem several_eq_ok_iff {values : List ConfiguredValue}
    (hseveral : policy.takesSeveral = true) :
    spec.several rule policy = .ok values ↔
      spec.configured policy ≠ [] ∧ values = spec.configured policy := by
  simp only [several, configured, hseveral, Bool.true_and]
  cases hvalues : spec.values with
  | nil =>
      cases spec.value with
      | none => simp
      | some value => simp [eq_comm]
  | cons head tail => simp [eq_comm]

theorem integerOf_eq_ok_iff {value : ConfiguredValue} {n : UInt64} :
    integerOf rule value = .ok n ↔ value.asInteger? = some n := by
  unfold integerOf
  cases value.asInteger? <;> simp

end CheckSpec

/-- A configured value is read as a number. -/
def ConfiguredValue.Reads (value : ConfiguredValue) (n : UInt64) : Prop :=
  value.asInteger? = some n

/-- The policy as a contract names it. -/
def IntegerPolicy.name : IntegerPolicy → PolicyName
  | .mandatoryValue _ => .mandatoryValue
  | .mandatoryValues _ => .mandatoryValues
  | .forbiddenValue _ => .forbiddenValue
  | .forbiddenValues _ => .forbiddenValues
  | .maxValue _ => .maxValue
  | .minValue _ => .minValue

/-- The numbers that the policy compares with. -/
def IntegerPolicy.numbers : IntegerPolicy → List UInt64
  | .mandatoryValue n => [n]
  | .mandatoryValues ns => ns
  | .forbiddenValue n => [n]
  | .forbiddenValues ns => ns
  | .maxValue n => [n]
  | .minValue n => [n]

/-- The policy as a contract names it. -/
def StringPolicy.name : StringPolicy → PolicyName
  | .mandatoryValue _ => .mandatoryValue
  | .mandatoryValues _ => .mandatoryValues
  | .forbiddenValue _ => .forbiddenValue
  | .forbiddenValues _ => .forbiddenValues

/-- The texts that the policy compares with. -/
def StringPolicy.texts : StringPolicy → List String
  | .mandatoryValue s => [s]
  | .mandatoryValues ss => ss
  | .forbiddenValue s => [s]
  | .forbiddenValues ss => ss

/-- Every name has its policy over integers, given as many numbers as it
takes. -/
theorem IntegerPolicy.exists_of_name {policy : PolicyName} {ns : List UInt64}
    (hcount : policy.takesSeveral = true ∨ ns.length = 1) :
    ∃ compiled : IntegerPolicy, compiled.name = policy ∧
      compiled.numbers = ns := by
  cases policy with
  | mandatoryValues => exact ⟨.mandatoryValues ns, rfl, rfl⟩
  | forbiddenValues => exact ⟨.forbiddenValues ns, rfl, rfl⟩
  | mandatoryValue =>
      obtain ⟨n, rfl⟩ :=
        List.length_eq_one_iff.mp (hcount.resolve_left Bool.false_ne_true)
      exact ⟨.mandatoryValue n, rfl, rfl⟩
  | forbiddenValue =>
      obtain ⟨n, rfl⟩ :=
        List.length_eq_one_iff.mp (hcount.resolve_left Bool.false_ne_true)
      exact ⟨.forbiddenValue n, rfl, rfl⟩
  | maxValue =>
      obtain ⟨n, rfl⟩ :=
        List.length_eq_one_iff.mp (hcount.resolve_left Bool.false_ne_true)
      exact ⟨.maxValue n, rfl, rfl⟩
  | minValue =>
      obtain ⟨n, rfl⟩ :=
        List.length_eq_one_iff.mp (hcount.resolve_left Bool.false_ne_true)
      exact ⟨.minValue n, rfl, rfl⟩

/-- Every name but those of the bounds has its policy over texts. -/
theorem StringPolicy.exists_of_name {policy : PolicyName} {ss : List String}
    (hmax : policy ≠ .maxValue) (hmin : policy ≠ .minValue)
    (hcount : policy.takesSeveral = true ∨ ss.length = 1) :
    ∃ compiled : StringPolicy, compiled.name = policy ∧
      compiled.texts = ss := by
  cases policy with
  | mandatoryValues => exact ⟨.mandatoryValues ss, rfl, rfl⟩
  | forbiddenValues => exact ⟨.forbiddenValues ss, rfl, rfl⟩
  | mandatoryValue =>
      obtain ⟨s, rfl⟩ :=
        List.length_eq_one_iff.mp (hcount.resolve_left Bool.false_ne_true)
      exact ⟨.mandatoryValue s, rfl, rfl⟩
  | forbiddenValue =>
      obtain ⟨s, rfl⟩ :=
        List.length_eq_one_iff.mp (hcount.resolve_left Bool.false_ne_true)
      exact ⟨.forbiddenValue s, rfl, rfl⟩
  | maxValue => contradiction
  | minValue => contradiction

namespace CheckSpec

variable {spec : CheckSpec} {rule : String} {policy : PolicyName}

theorem reads_single_iff {values : List ConfiguredValue} {n : UInt64} :
    values ≠ [] ∧ List.Forall₂ ConfiguredValue.Reads values [n] ↔
      List.Forall₂ ConfiguredValue.Reads values [n] := by
  rw [and_iff_right_iff_imp]
  rintro hreads rfl
  cases hreads

theorem readSingle_eq_ok_iff (policy : PolicyName)
    (hone : policy.takesSeveral = false) {n : UInt64} :
    (do integerOf rule (← spec.single rule policy)) = .ok n ↔
      List.Forall₂ ConfiguredValue.Reads (spec.configured policy) [n] := by
  rw [bind_eq_ok_iff, configured_of_single hone]
  simp only [single_eq_ok_iff, integerOf_eq_ok_iff]
  cases spec.value with
  | none => simp
  | some value => simp [ConfiguredValue.Reads]

theorem readSeveral_eq_ok_iff (policy : PolicyName)
    (hseveral : policy.takesSeveral = true) {ns : List UInt64} :
    (do (← spec.several rule policy).mapM (integerOf rule)) = .ok ns ↔
      spec.configured policy ≠ [] ∧
        List.Forall₂ ConfiguredValue.Reads (spec.configured policy) ns := by
  rw [bind_eq_ok_iff]
  simp only [several_eq_ok_iff hseveral, mapM_eq_ok_iff, integerOf_eq_ok_iff]
  constructor
  · rintro ⟨values, ⟨hne, rfl⟩, hreads⟩
    exact ⟨hne, hreads⟩
  · rintro ⟨hne, hreads⟩
    exact ⟨_, ⟨hne, rfl⟩, hreads⟩

theorem textSingle_eq_ok_iff (policy : PolicyName)
    (hone : policy.takesSeveral = false) {text : String} :
    (do return (← spec.single rule
      policy).asText : Except ContractError String) = .ok text ↔
      spec.configured policy ≠ [] ∧
        (spec.configured policy).map ConfiguredValue.asText = [text] := by
  rw [return_eq_ok_iff, configured_of_single hone]
  simp only [single_eq_ok_iff]
  cases spec.value with
  | none => simp
  | some value => simp

theorem textSeveral_eq_ok_iff (policy : PolicyName)
    (hseveral : policy.takesSeveral = true) {texts : List String} :
    (do return (← spec.several rule policy).map ConfiguredValue.asText :
        Except ContractError (List String)) = .ok texts ↔
      spec.configured policy ≠ [] ∧
        (spec.configured policy).map ConfiguredValue.asText = texts := by
  rw [return_eq_ok_iff]
  simp only [several_eq_ok_iff hseveral]
  constructor
  · rintro ⟨values, ⟨hne, rfl⟩, htexts⟩
    exact ⟨hne, htexts⟩
  · rintro ⟨hne, htexts⟩
    exact ⟨_, ⟨hne, rfl⟩, htexts⟩

/-- A policy over integers keeps its name and compares with the numbers that are
configured. -/
theorem integerPolicy_eq_ok_iff {compiled : IntegerPolicy} :
    spec.integerPolicy rule policy = .ok compiled ↔
      compiled.name = policy ∧ spec.configured policy ≠ [] ∧
        List.Forall₂ ConfiguredValue.Reads (spec.configured policy)
          compiled.numbers := by
  unfold integerPolicy
  cases policy with
  | mandatoryValue =>
      rw [return_eq_ok_iff]
      simp only [readSingle_eq_ok_iff .mandatoryValue rfl]
      cases compiled <;>
        simp [IntegerPolicy.name, IntegerPolicy.numbers, reads_single_iff]
  | mandatoryValues =>
      rw [return_eq_ok_iff]
      simp only [readSeveral_eq_ok_iff .mandatoryValues rfl]
      cases compiled <;> simp [IntegerPolicy.name, IntegerPolicy.numbers]
  | forbiddenValue =>
      rw [return_eq_ok_iff]
      simp only [readSingle_eq_ok_iff .forbiddenValue rfl]
      cases compiled <;>
        simp [IntegerPolicy.name, IntegerPolicy.numbers, reads_single_iff]
  | forbiddenValues =>
      rw [return_eq_ok_iff]
      simp only [readSeveral_eq_ok_iff .forbiddenValues rfl]
      cases compiled <;> simp [IntegerPolicy.name, IntegerPolicy.numbers]
  | maxValue =>
      rw [return_eq_ok_iff]
      simp only [readSingle_eq_ok_iff .maxValue rfl]
      cases compiled <;>
        simp [IntegerPolicy.name, IntegerPolicy.numbers, reads_single_iff]
  | minValue =>
      rw [return_eq_ok_iff]
      simp only [readSingle_eq_ok_iff .minValue rfl]
      cases compiled <;>
        simp [IntegerPolicy.name, IntegerPolicy.numbers, reads_single_iff]

/-- A policy over texts keeps its name and compares with the configured values
as texts.  The bounds have no such policy. -/
theorem stringPolicy_eq_ok_iff {compiled : StringPolicy} :
    spec.stringPolicy rule policy = .ok compiled ↔
      compiled.name = policy ∧ spec.configured policy ≠ [] ∧
        (spec.configured policy).map ConfiguredValue.asText =
          compiled.texts := by
  unfold stringPolicy
  cases policy with
  | mandatoryValue =>
      rw [return_eq_ok_iff]
      simp only [textSingle_eq_ok_iff .mandatoryValue rfl]
      cases compiled <;> simp [StringPolicy.name, StringPolicy.texts]
  | mandatoryValues =>
      rw [return_eq_ok_iff]
      simp only [textSeveral_eq_ok_iff .mandatoryValues rfl]
      cases compiled <;> simp [StringPolicy.name, StringPolicy.texts]
  | forbiddenValue =>
      rw [return_eq_ok_iff]
      simp only [textSingle_eq_ok_iff .forbiddenValue rfl]
      cases compiled <;> simp [StringPolicy.name, StringPolicy.texts]
  | forbiddenValues =>
      rw [return_eq_ok_iff]
      simp only [textSeveral_eq_ok_iff .forbiddenValues rfl]
      cases compiled <;> simp [StringPolicy.name, StringPolicy.texts]
  | maxValue =>
      cases compiled <;>
      simp [StringPolicy.name, throw, throwThe, MonadExceptOf.throw]
  | minValue =>
      cases compiled <;>
      simp [StringPolicy.name, throw, throwThe, MonadExceptOf.throw]

end CheckSpec

end WebConfigAudit
