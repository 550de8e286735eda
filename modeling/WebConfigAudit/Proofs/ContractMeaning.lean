import Mathlib.Algebra.GroupWithZero.Nat
import WebConfigAudit.Proofs.AcceptedContract
import WebConfigAudit.Proofs.ConfiguredValues
import WebConfigAudit.Proofs.FlatReading
/-!
What the flat form of a contract says about a node, read without compiling it,
and the agreement of the compiled rules with that reading.
-/

namespace WebConfigAudit

/-- Whether a value meets a policy, by the configured values that it is compared
with. -/
def PolicyName.Accepts {α : Type} [LE α] (policy : PolicyName)
    (configured : List α) (value : α) : Prop :=
  match policy with
  | .mandatoryValue => value ∈ configured
  | .mandatoryValues => value ∈ configured
  | .forbiddenValue => value ∉ configured
  | .forbiddenValues => value ∉ configured
  | .maxValue => ∀ bound ∈ configured, value ≤ bound
  | .minValue => ∀ bound ∈ configured, bound ≤ value

instance {α : Type} [DecidableEq α] [LE α] [DecidableLE α] (policy : PolicyName)
    (configured : List α) (value : α) :
    Decidable (policy.Accepts configured value) :=
  match policy with
  | .mandatoryValue => inferInstanceAs (Decidable (value ∈ configured))
  | .mandatoryValues => inferInstanceAs (Decidable (value ∈ configured))
  | .forbiddenValue => inferInstanceAs (Decidable (value ∉ configured))
  | .forbiddenValues => inferInstanceAs (Decidable (value ∉ configured))
  | .maxValue =>
      inferInstanceAs (Decidable (∀ bound ∈ configured, value ≤ bound))
  | .minValue =>
      inferInstanceAs (Decidable (∀ bound ∈ configured, bound ≤ value))

namespace CheckSpec

/-- The configured values as numbers.  In an accepted contract each of them is
one. -/
def numbers (spec : CheckSpec) (policy : PolicyName) : List Nat :=
  (spec.configured policy).filterMap ConfiguredValue.number?

/-- The configured values as texts. -/
def texts (spec : CheckSpec) (policy : PolicyName) : List String :=
  (spec.configured policy).map ConfiguredValue.compared

/-- Whether the attribute found on an element, or its absence, is what the check
asks for. -/
def Holds (spec : CheckSpec) : Option AttributeMatch → Prop
  | none => spec.domain ≠ .presence
  | some found =>
      (spec.domain = .integer →
        ∃ policy ∈ spec.policy, ∃ n ∈ Text.numeral? found.said,
          policy.Accepts (spec.numbers policy) n) ∧
      (spec.domain = .string →
        ∃ policy ∈ spec.policy,
          policy.Accepts (spec.texts policy) found.compared)

instance (spec : CheckSpec) : DecidablePred spec.Holds
  | none => inferInstanceAs (Decidable (_ ≠ _))
  | some _ => inferInstanceAs (Decidable ((_ → _) ∧ (_ → _)))

/-- What the check says of a node. -/
def judge (spec : CheckSpec) (node : Node) : Except NodeError Outcome :=
  if node.kind = .element spec.tag then
    (node.namedAttribute? spec.attributeName).map fun found =>
      if spec.Holds found then .pass else .violation
  else .ok .notApplicable

end CheckSpec

/-- Whether the value found is one of those that the anchor names. -/
def AnchorSpec.affirms (spec : AnchorSpec) (found : AttributeMatch) : Bool :=
  (spec.values.map ConfiguredValue.compared).contains found.compared

/-- Whether the value found is the one that the countermand names. -/
def CountermandSpec.grants (spec : CountermandSpec) (found : AttributeMatch) :
    Bool :=
  found.compared == spec.value.compared

/-- The attribute that a contract speaks of, on elements of one kind. -/
def Node.namedAttributeAs? (node : Node) (tag : Tag) (name : String) :
    Except NodeError (Option AttributeMatch) :=
  if node.kind = .element tag then node.namedAttribute? name else .ok none

/-- What a compound rule notes of a node, after what was seen before. -/
def CompoundRuleSpec.note (spec : CompoundRuleSpec) (seen : Evidence)
    (node : Node) :
    Evidence × Option NodeError :=
  match node.namedAttributeAs? spec.anchor.tag spec.anchor.attributeName with
  | .error e => (seen, some e)
  | .ok anchor? =>
      let anchored := if anchor?.any spec.anchor.affirms then
        { seen with anchor := some node }
        else seen
      match node.namedAttributeAs? spec.countermand.tag
        spec.countermand.attributeName with
      | .error e => (anchored, some e)
      | .ok grant? =>
          (if grant?.any spec.countermand.grants then
            { anchored with countermanded := true }
            else anchored, none)

namespace Check

@[simp] theorem accepts_presence (found? : Option AttributeMatch) :
    Check.presence.accepts found? = found?.isSome := by
  unfold accepts
  rfl

@[simp] theorem accepts_integer_none (policy : IntegerPolicy) :
    (Check.integer policy).accepts none = true := by
  unfold accepts
  rfl

@[simp] theorem accepts_integer_some (policy : IntegerPolicy)
    (found : AttributeMatch) :
    (Check.integer policy).accepts (some found) =
      (Text.readDecimal found.valueText.toList).any policy.allows := by
  unfold accepts
  dsimp only
  cases Text.readDecimal found.valueText.toList <;> rfl

@[simp] theorem accepts_string_none (policy : StringPolicy) :
    (Check.string policy).accepts none = true := by
  unfold accepts
  rfl

@[simp] theorem accepts_string_some (policy : StringPolicy)
    (found : AttributeMatch) :
    (Check.string policy).accepts (some found) =
      policy.allows found.normalizedValue := by
  unfold accepts
  rfl

end Check

theorem IntegerPolicy.allows_iff (compiled : IntegerPolicy) (n : UInt64) :
    compiled.allows n = true ↔
      compiled.name.Accepts (compiled.numbers.map UInt64.toNat) n.toNat := by
  cases compiled <;>
    simp [allows, name, numbers, PolicyName.Accepts, UInt64.le_iff_toNat_le,
      UInt64.toNat_inj]

theorem StringPolicy.allows_normalized_iff (compiled : StringPolicy)
    (s : String) :
    compiled.normalized.allows s = true ↔
      compiled.name.Accepts (compiled.texts.map normalize) s := by
  cases compiled <;> simp [allows, normalized, name, texts, PolicyName.Accepts]

namespace CheckSpec

variable {spec : CheckSpec} {rule : String} {policy : PolicyName}

theorem numbers_of_reads {ns : List UInt64}
    (hreads : List.Forall₂ ConfiguredValue.Reads (spec.configured policy) ns) :
    spec.numbers policy = ns.map UInt64.toNat := by
  rw [numbers]
  generalize spec.configured policy = values at hreads
  induction hreads with
  | nil => rfl
  | @cons value n _ _ hhead _ ih =>
      have hnumber : value.number? = some n.toNat := by
        rw [ConfiguredValue.number?_eq, hhead, Option.map_some]
      rw [List.filterMap_cons_some hnumber, ih, List.map_cons]

/-- A compiled check over integers accepts the numerals whose numbers meet the
policy. -/
theorem integer_accepts_iff {compiled : IntegerPolicy}
    (hcompiled : spec.integerPolicy rule policy = .ok compiled)
    (found : AttributeMatch) :
    (Check.integer compiled).accepts (some found) = true ↔
      ∃ n ∈ Text.numeral? found.said,
        policy.Accepts (spec.numbers policy) n := by
  obtain ⟨hname, _, hreads⟩ := integerPolicy_eq_ok_iff.mp hcompiled
  -- both sides speak of the compiled numbers and the compiled policy's own name
  rw [numbers_of_reads hreads, ← hname, Check.accepts_integer_some,
    Text.numeral?_eq, found.toList_valueText]
  cases Text.readDecimal found.said with
  | none => simp
  | some n => simp [← IntegerPolicy.allows_iff]

/-- A compiled check over texts accepts the texts that meet the policy. -/
theorem string_accepts_iff {compiled : StringPolicy}
    (hcompiled : spec.stringPolicy rule policy = .ok compiled)
    (found : AttributeMatch) :
    (Check.ofStringPolicy compiled).accepts (some found) = true ↔
      policy.Accepts (spec.texts policy) found.compared := by
  obtain ⟨hname, _, htexts⟩ := stringPolicy_eq_ok_iff.mp hcompiled
  have hnormalized : spec.texts policy = compiled.texts.map normalize := by
    rw [← htexts, List.map_map, texts]
    exact List.map_congr_left fun value _ => value.normalize_asText.symm
  rw [hnormalized, ← hname, ← found.normalizedValue_eq_compared,
    ← StringPolicy.allows_normalized_iff, Check.ofStringPolicy,
    Check.accepts_string_some]

/-- A compiled check accepts just what the flat check asks for. -/
theorem accepts_iff_holds {check : Check}
    (hcompile : spec.compileCheck rule = .ok check)
    (found? : Option AttributeMatch) :
    check.accepts found? = true ↔ spec.Holds found? := by
  unfold compileCheck at hcompile
  split at hcompile
  -- the three forms of a presence check
  case h_1 hdomain _ | h_2 hdomain _ | h_3 hdomain _ =>
    cases hcompile
    cases found? <;> simp [Holds, hdomain]
  case h_4 => contradiction
  case h_5 => contradiction
  case h_6 policy hdomain hpolicy =>
    obtain ⟨compiled, hcompiled, rfl⟩ := map_eq_ok_iff.mp hcompile
    cases found? with
    | none => simp [Holds, hdomain]
    | some found =>
        rw [integer_accepts_iff hcompiled]
        simp [Holds, hdomain, hpolicy]
  case h_7 policy hdomain hpolicy =>
    obtain ⟨compiled, hcompiled, rfl⟩ := map_eq_ok_iff.mp hcompile
    cases found? with
    | none => simp [Check.ofStringPolicy, Holds, hdomain]
    | some found =>
        rw [string_accepts_iff hcompiled]
        simp [Holds, hdomain, hpolicy]

/-- A compiled clause says of every node what the flat check says.  The name
is put into lower case when the clause is made and once more when it is looked
up. -/
theorem evaluate_eq_judge {clause : Clause}
    (hcompile : spec.compile rule = .ok clause) (node : Node) :
    clause.evaluate node = spec.judge node := by
  obtain ⟨_, check, hcheck, rfl⟩ := compile_eq_ok_iff.mp hcompile
  simp only [Clause.evaluate, Clause.of, judge, Node.findAttribute?_lowercase,
    Node.findAttribute?_trim]
  by_cases hkind : node.kind = .element spec.tag
  · rw [if_pos hkind, if_pos hkind]
    cases node.namedAttribute? spec.attributeName with
    | error e => rfl
    | ok found? => simp [Check.evaluate, Except.map, accepts_iff_holds hcheck]
  · rw [if_neg hkind, if_neg hkind]

end CheckSpec

/-- Looking up an attribute and telling two cases apart: its value is accepted,
or it is not or there is none. -/
theorem Node.lookup_eq_map (node : Node) (tag : Tag) (name : String)
    (accepts : AttributeMatch → Prop) [DecidablePred accepts]
    (yes no : Evidence) :
    (if node.kind = .element tag then
      match node.findAttribute? (Text.trim name) with
      | .error e => .error e
      | .ok none => .ok no
      | .ok (some found) => if accepts found then .ok yes else .ok no
    else .ok no) =
      (node.namedAttributeAs? tag name).map fun attribute? =>
        if attribute?.any fun found => decide (accepts found) then yes
        else no := by
  simp only [Node.namedAttributeAs?, Node.findAttribute?_trim]
  by_cases hkind : node.kind = .element tag
  · rw [if_pos hkind, if_pos hkind]
    rcases node.namedAttribute? name with e | _ | found
    · rfl
    · rfl
    · simp only [Option.any_some, decide_eq_true_eq, Except.map]
      exact (apply_ite Except.ok _ _ _).symm
  · rw [if_neg hkind, if_neg hkind]
    rfl

namespace CompoundRuleSpec

variable {spec : CompoundRuleSpec} {rule : CompoundRule}

theorem noteAnchor_of_compile (hcompile : spec.compile = .ok rule)
    (seen : Evidence) (node : Node) :
    seen.noteAnchor rule node =
      (node.namedAttributeAs? spec.anchor.tag spec.anchor.attributeName).map
        fun anchor? =>
          if anchor?.any spec.anchor.affirms then
            { seen with anchor := some node } else seen := by
  obtain ⟨_, _, _, rfl⟩ := compile_eq_ok_iff.mp hcompile
  have haffirms : spec.anchor.affirms = fun found => decide
      (((spec.anchor.values.map ConfiguredValue.asText).map normalize).contains
        found.normalizedValue = true) := by
    funext found
    simp [AnchorSpec.affirms, ConfiguredValue.normalize_asText,
      AttributeMatch.normalizedValue_eq_compared]
  rw [haffirms]
  exact Node.lookup_eq_map node _ _ _ _ _

theorem noteCountermand_of_compile (hcompile : spec.compile = .ok rule)
    (seen : Evidence) (node : Node) :
    seen.noteCountermand rule node =
      (node.namedAttributeAs? spec.countermand.tag
          spec.countermand.attributeName).map fun grant? =>
          if grant?.any spec.countermand.grants then
            { seen with countermanded := true }
          else seen := by
  obtain ⟨_, _, _, rfl⟩ := compile_eq_ok_iff.mp hcompile
  have hgrants : spec.countermand.grants = fun found => decide
      (found.normalizedValue = normalize spec.countermand.value.asText) := by
    funext found
    rw [CountermandSpec.grants, ConfiguredValue.normalize_asText,
      AttributeMatch.normalizedValue_eq_compared, beq_eq_decide]
  rw [hgrants]
  exact Node.lookup_eq_map node _ _ _ _ _

/-- A compiled rule on two elements notes of every node what the flat rule
notes. -/
theorem observe_eq_note (hcompile : spec.compile = .ok rule) (seen : Evidence)
    (node : Node) :
    seen.observe rule node = spec.note seen node := by
  simp only [Evidence.observe, note, noteAnchor_of_compile hcompile,
    noteCountermand_of_compile hcompile]
  cases node.namedAttributeAs? spec.anchor.tag spec.anchor.attributeName with
  | error e => rfl
  | ok anchor? =>
      cases node.namedAttributeAs? spec.countermand.tag
        spec.countermand.attributeName with
      | error e => rfl
      | ok grant? => rfl

end CompoundRuleSpec

/-- A clause says of every node what the flat check says. -/
structure CheckSpec.Means (spec : CheckSpec) (clause : Clause) : Prop where
  tag : clause.tag = spec.tag
  evaluate : ∀ node, clause.evaluate node = spec.judge node

/-- A rule on single elements is made of clauses that say what the flat checks
say, in their order. -/
structure RuleSpec.Means (spec : RuleSpec) (rule : ElementRule) : Prop where
  id : rule.id = spec.id
  description : rule.description = spec.description
  clauses : List.Forall₂ CheckSpec.Means spec.checks rule.clauses

/-- A rule on two elements notes what the flat rule notes, of every node and
after whatever was seen before. -/
structure CompoundRuleSpec.Means (spec : CompoundRuleSpec)
    (rule : CompoundRule) : Prop where
  id : rule.id = spec.id
  description : rule.description = spec.description
  observe : ∀ seen node, Evidence.observe rule seen node = spec.note seen node

theorem CheckSpec.means_of_compile {spec : CheckSpec} {rule : String}
    {clause : Clause} (hcompile : spec.compile rule = .ok clause) :
    spec.Means clause where
  tag := by
    obtain ⟨_, check, _, rfl⟩ := compile_eq_ok_iff.mp hcompile
    rfl
  evaluate := evaluate_eq_judge hcompile

theorem RuleSpec.means_of_compile {spec : RuleSpec} {rule : ElementRule}
    (hcompile : spec.compile = .ok rule) : spec.Means rule := by
  obtain ⟨_, _, clauses, hclauses, rfl⟩ := compile_eq_ok_iff.mp hcompile
  exact ⟨rfl, rfl,
    hclauses.imp fun _ _ hclause => CheckSpec.means_of_compile hclause⟩

theorem CompoundRuleSpec.means_of_compile {spec : CompoundRuleSpec}
    {rule : CompoundRule} (hcompile : spec.compile = .ok rule) :
    spec.Means rule := by
  have hobserve := observe_eq_note hcompile
  obtain ⟨_, _, _, rfl⟩ := compile_eq_ok_iff.mp hcompile
  exact ⟨rfl, rfl, hobserve⟩

/-- The rules that an accepted contract is compiled to are the built-in ones it
leaves on, followed by one rule for each of its own that means what the flat
rule means. -/
theorem compile_preserves_meaning {contract : Contract} {rules : RuleSet}
    (haccepted : contract.compile = .ok rules) :
    ∃ own ownCompound,
      rules = ⟨contract.builtinPart.elementRules ++ own,
        contract.builtinPart.compoundRules ++ ownCompound⟩ ∧
      List.Forall₂ RuleSpec.Means contract.rules own ∧
      List.Forall₂ CompoundRuleSpec.Means contract.compoundRules
        ownCompound := by
  obtain ⟨_, own, ownCompound, hown, hcompound, hrules, _⟩ :=
    Contract.compile_eq_ok_iff.mp haccepted
  refine ⟨own, ownCompound, hrules, ?_, ?_⟩
  · exact (mapM_eq_ok_iff.mp hown).imp fun _ _ hrule =>
      RuleSpec.means_of_compile hrule
  · exact (mapM_eq_ok_iff.mp hcompound).imp fun _ _ hrule =>
      CompoundRuleSpec.means_of_compile hrule

namespace ContractMeaningWitness

/-- Checks over both domains, with a lone value under a policy about several,
and a rule on two elements. -/
def contract : Contract where
  builtinRules := some false
  rules :=
    [{ id := "LimitRequests"
       checks :=
        [{ tag := .httpRuntime, attributeName := " maxRequestLength",
           domain := .integer
           policy := some .forbiddenValues, value := some (.text " 4096 ") },
         { tag := .httpRuntime, attributeName := "enableHeaderChecking",
           domain := .string
           policy := some .mandatoryValue, value := some (.text "TRUE") }] }]
  compoundRules :=
    [{ id := "AvoidRemoteTrace"
       anchor := { tag := .trace, attributeName := "Enabled" }
       countermand := { tag := .trace, attributeName := "localOnly",
                        value := .text "True" } }]

/-- The rules that the contract means. -/
def rules : RuleSet := contract.compile.toOption.getD {}

theorem compile_contract : contract.compile = .ok rules := by decide +kernel

/-- An element with one or two attributes. -/
def elementWith (tag : Tag) (attributes : List (String × String)) : Node :=
  { Node.element tag Span.nowhere with
    children := attributes.map fun (name, value) =>
      Node.statement name value Span.nowhere Span.nowhere }

/-- The values are in capitals, with blanks about them and unlike quote
marks. -/
def request : Node :=
  elementWith .httpRuntime
    [("MaxRequestLength:bytes", "\"\u00a04096\n'"),
     ("enableHeaderChecking", "' True\"")]

def remoteTrace : Node :=
  elementWith .trace [("enabled", "' TRUE '"), ("localonly", "'false'")]

def localTrace : Node := elementWith .trace [("localonly", "\"tRUE \"")]

/-- The flat checks are about numbers and texts whatever they look like: the
length is the forbidden one and the text the demanded one, and of the traces the
one is an anchor and the other its countermand. -/
theorem flat_contract_keeps_its_meaning :
    contract.compile = .ok rules ∧
      (∃ own ownCompound,
        rules = ⟨contract.builtinPart.elementRules ++ own,
          contract.builtinPart.compoundRules ++ ownCompound⟩ ∧
        List.Forall₂ RuleSpec.Means contract.rules own ∧
        List.Forall₂ CompoundRuleSpec.Means contract.compoundRules
          ownCompound) ∧
      (contract.rules.map fun rule => rule.checks.map (·.judge request)) =
        [[.ok .violation, .ok .pass]] ∧
      (contract.compoundRules.map fun rule =>
          (rule.note {} remoteTrace).1.verdict.isSome) = [true] ∧
      (contract.compoundRules.map fun rule =>
          (rule.note (rule.note {} remoteTrace).1
            localTrace).1.verdict.isSome) =
        [false] :=
  ⟨compile_contract, compile_preserves_meaning compile_contract,
    by decide +kernel, by decide +kernel, by decide +kernel⟩

end ContractMeaningWitness

end WebConfigAudit
