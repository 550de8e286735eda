import WebConfigAudit.Proofs.Evidence
/-!
Observations that a malformed statement cuts short.  A rule on two kinds of
element passes such a node over as if it were not there.  A rule that looks for
both of its attributes on one kind may meet the malformed statement after it has
noted the anchor, and the anchor then stays noted.
-/

namespace WebConfigAudit

section Step

variable {rule : CompoundRule} {seen : Evidence} {node : Node}

theorem CompoundRule.stumbles_of_error {e : NodeError}
    (hcut : (seen.observe rule node).2 = some e) :
    rule.stumbles node = true := by
  rw [← Evidence.observe_snd_isSome rule seen node, hcut]
  rfl

/-- No node is a countermand and cuts the look short as well. -/
theorem CompoundRule.countermands_eq_false_of_stumbles
    (hstumbles : rule.stumbles node = true) :
    rule.countermands node = false := by
  rw [countermands, Bool.and_eq_false_iff]
  rcases (Bool.or_eq_true _ _).mp hstumbles with hanchor | hcountermand
  · exact Or.inr (by rw [hanchor]; rfl)
  · left
    obtain ⟨_, e, he⟩ := Node.failsLookup_eq_true_iff.mp hcountermand
    rw [isCountermand, Bool.eq_false_iff, ne_eq, Node.hasValue_eq_true_iff]
    rintro ⟨_, found, hfound, _⟩
    rw [he] at hfound
    contradiction

/-- An anchor can only be cut short in the look for the countermand, which is
then of its kind. -/
theorem CompoundRule.sameKind_of_isAnchor_of_stumbles
    (hanchor : rule.isAnchor node = true)
    (hstumbles : rule.stumbles node = true) :
    rule.anchor.tag = rule.countermand.tag ∧
      rule.countermandFails node = true := by
  have hfails : rule.countermandFails node = true := by
    rcases (Bool.or_eq_true _ _).mp hstumbles with
      hanchorFails | hcountermandFails
    · rw [isAnchor_eq_false_of_anchorFails hanchorFails] at hanchor
      contradiction
    · exact hcountermandFails
  have hkind := (Node.hasValue_eq_true_iff.mp hanchor).1
  rw [(Node.failsLookup_eq_true_iff.mp hfails).1] at hkind
  exact ⟨(NodeKind.element.inj hkind).symm, hfails⟩

theorem Evidence.observe_of_stumbles (seen : Evidence)
    (hstumbles : rule.stumbles node = true) :
    (seen.observe rule node).1 =
      { seen with
        anchor := if rule.isAnchor node then some node else seen.anchor } := by
  rw [observe_fst, CompoundRule.countermands_eq_false_of_stumbles hstumbles,
    Bool.or_false]

theorem Evidence.observe_of_stumbles_of_kinds_ne (seen : Evidence)
    (hkinds : rule.anchor.tag ≠ rule.countermand.tag)
    (hstumbles : rule.stumbles node = true) :
    (seen.observe rule node).1 = seen := by
  have hanchor : rule.isAnchor node = false := by
    rw [Bool.eq_false_iff]
    intro hanchor
    exact hkinds
      (CompoundRule.sameKind_of_isAnchor_of_stumbles hanchor hstumbles).1
  rw [observe_of_stumbles seen hstumbles, hanchor]
  rfl

/-- A rule on two kinds passes over every node that cuts it short. -/
theorem Evidence.after_filter_stumbles
    (hkinds : rule.anchor.tag ≠ rule.countermand.tag) (seen : Evidence)
    (nodes : List Node) :
    seen.after rule (nodes.filter fun node => !rule.stumbles node) =
      seen.after rule nodes := by
  induction nodes generalizing seen with
  | nil => rfl
  | cons node nodes ih =>
      cases hstumbles : rule.stumbles node with
      | true =>
          rw [List.filter_cons_of_neg (by simp [hstumbles]), after_cons,
            observe_of_stumbles_of_kinds_ne seen hkinds hstumbles, ih]
      | false =>
          rw [List.filter_cons_of_pos (by simp [hstumbles]), after_cons,
            after_cons, ih]

end Step

/-- An observation that is cut short never notes a countermand.  It notes an
anchor only if the rule looks for both attributes on one kind of element and the
malformed statement is met in the look for the second; otherwise the evidence is
as it was.  In a run of a rule on two kinds, the nodes that cut it short might
as well be left out. -/
theorem observation_cut_short (rule : CompoundRule) :
    (∀ (seen : Evidence) (node : Node) (e : NodeError),
      (seen.observe rule node).2 = some e →
      let left := (seen.observe rule node).1
      left.countermanded = seen.countermanded ∧
        (rule.isAnchor node = false → left = seen) ∧
        (rule.isAnchor node = true → left.anchor = some node ∧
          rule.anchor.tag = rule.countermand.tag ∧
          rule.countermandFails node = true)) ∧
    (rule.anchor.tag ≠ rule.countermand.tag →
        ∀ (seen : Evidence) (nodes : List Node),
      seen.after rule (nodes.filter fun node => !rule.stumbles node) =
        seen.after rule nodes) := by
  refine ⟨?_, Evidence.after_filter_stumbles⟩
  intro seen node e hcut
  have hstumbles := CompoundRule.stumbles_of_error hcut
  simp only [Evidence.observe_of_stumbles seen hstumbles, true_and]
  constructor
  · intro hother
    rw [hother]
    rfl
  · intro hanchor
    rw [hanchor]
    exact ⟨rfl, CompoundRule.sameKind_of_isAnchor_of_stumbles hanchor hstumbles⟩

namespace InterruptedObservationWitness

open EvidenceWitness (rule traceWith)

/-- Tracing is on, and it is not said whether it is kept to local users. -/
def halfSaid : Node :=
  traceWith
    [Node.statement "enabled" "\"true\"" Span.nowhere Span.nowhere,
     { kind := .statement, text := "localOnly", span := Span.nowhere
       children := [{ kind := .attributeName, text := "localOnly",
                      span := Span.nowhere }] }]

/-- The same rule, with the countermand looked for on another kind of
element. -/
def ruleOnTwoKinds : CompoundRule :=
  { rule with countermand := .of .compilation "localOnly" "true" }

def fault : NodeError := .missingValue "localOnly" Span.nowhere

theorem observe_halfSaid :
    (Evidence.observe rule {} halfSaid).2 = some fault := by
  decide +kernel

theorem isAnchor_halfSaid : rule.isAnchor halfSaid = true := by decide +kernel

theorem half_said_is_noted :
    (Evidence.observe rule {} halfSaid).2 = some fault ∧
      (Evidence.observe rule {} halfSaid).1.countermanded = false ∧
      (Evidence.observe rule {} halfSaid).1.anchor = some halfSaid ∧
      ruleOnTwoKinds.anchor.tag ≠ ruleOnTwoKinds.countermand.tag ∧
      Evidence.after ruleOnTwoKinds {}
        ([halfSaid].filter fun node => !ruleOnTwoKinds.stumbles node) =
        Evidence.after ruleOnTwoKinds {} [halfSaid] := by
  obtain ⟨hstep, _⟩ := observation_cut_short rule
  obtain ⟨hcountermanded, _, hanchor⟩ :=
    hstep {} halfSaid fault observe_halfSaid
  have hkinds : ruleOnTwoKinds.anchor.tag ≠ ruleOnTwoKinds.countermand.tag := by
    decide
  obtain ⟨_, hrun⟩ := observation_cut_short ruleOnTwoKinds
  exact ⟨observe_halfSaid, hcountermanded,
    (hanchor isAnchor_halfSaid).1, hkinds, hrun hkinds {} [halfSaid]⟩

/-- An error does not leave the evidence as it was. -/
theorem error_leaves_anchor :
    ¬ ∀ (rule : CompoundRule) (seen : Evidence) (node : Node) (e : NodeError),
      (seen.observe rule node).2 = some e →
        (seen.observe rule node).1.anchor = seen.anchor ∧
          (seen.observe rule node).1.countermanded = seen.countermanded := by
  intro hatomic
  obtain ⟨hanchor, _⟩ := hatomic rule {} halfSaid fault observe_halfSaid
  rw [Evidence.observe_fst, isAnchor_halfSaid] at hanchor
  contradiction

end InterruptedObservationWitness

end WebConfigAudit
