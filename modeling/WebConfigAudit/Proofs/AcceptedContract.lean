import WebConfigAudit.Contract.Compile
import WebConfigAudit.Proofs.Fallible
/-!
Which contracts are compiled, and to what.  A contract is accepted when it
disables nothing but built-in rules, each of its own rules compiles, and no name
occurs twice among the rules that result.
-/

namespace WebConfigAudit

theorem CheckSpec.compile_eq_ok_iff {spec : CheckSpec} {rule : String}
    {clause : Clause} :
    spec.compile rule = .ok clause ↔
      Text.isBlankText spec.attributeName = false ∧
        ∃ check, spec.compileCheck rule = .ok check ∧
          Clause.of spec.tag (Text.trim spec.attributeName) check = clause := by
  unfold compile
  cases hblank : Text.isBlankText spec.attributeName with
  | true => simp
  | false => simp [map_eq_ok_iff]

theorem RuleSpec.compile_eq_ok_iff {spec : RuleSpec} {rule : ElementRule} :
    spec.compile = .ok rule ↔
      Text.isBlankText spec.id = false ∧ spec.checks ≠ [] ∧
        ∃ clauses, List.Forall₂ (fun (check : CheckSpec) clause =>
            check.compile spec.id = .ok clause) spec.checks clauses ∧
          ⟨spec.id, spec.description, clauses⟩ = rule := by
  unfold compile
  cases hblank : Text.isBlankText spec.id with
  | true => simp
  | false =>
      cases hchecks : spec.checks with
      | nil => simp
      | cons check rest =>
          rw [← hchecks]
          have hne : spec.checks ≠ [] := by simp [hchecks]
          simp [hne, map_eq_ok_iff, mapM_eq_ok_iff]

theorem CompoundRuleSpec.compile_eq_ok_iff {spec : CompoundRuleSpec}
    {rule : CompoundRule} :
    spec.compile = .ok rule ↔
      Text.isBlankText spec.id = false ∧
        Text.isBlankText spec.anchor.attributeName = false ∧
        Text.isBlankText spec.countermand.attributeName = false ∧
        { id := spec.id
          description := spec.description
          anchor := .of spec.anchor.tag (Text.trim spec.anchor.attributeName)
            (spec.anchor.values.map ConfiguredValue.asText)
          countermand := .of spec.countermand.tag
            (Text.trim spec.countermand.attributeName)
            spec.countermand.value.asText } = rule := by
  unfold compile
  cases hblank : Text.isBlankText spec.id with
  | true => simp
  | false =>
      cases hanchor : Text.isBlankText spec.anchor.attributeName with
      | true => simp
      | false =>
          cases hcountermand :
            Text.isBlankText spec.countermand.attributeName with
          | true => simp
          | false => simp

theorem firstRepeated_eq_none_iff (seen ids : List String) :
    firstRepeated seen ids = none ↔ ids.Nodup ∧ ∀ id ∈ ids, id ∉ seen := by
  induction ids generalizing seen with
  | nil => simp [firstRepeated]
  | cons id ids ih =>
      by_cases hseen : id ∈ seen
      · simp [firstRepeated, hseen]
      · simp only [firstRepeated, List.contains_eq_mem, hseen, decide_false,
          Bool.false_eq_true, ↓reduceIte, ih, List.nodup_cons, List.mem_cons,
          not_or, forall_eq_or_imp, not_false_eq_true, true_and]
        constructor
        · rintro ⟨hnodup, hnew⟩
          exact ⟨⟨fun hmem => (hnew id hmem).1 rfl, hnodup⟩, fun other hother =>
            (hnew other hother).2⟩
        · rintro ⟨⟨hfresh, hnodup⟩, hnew⟩
          refine ⟨hnodup, fun other hother => ⟨?_, hnew other hother⟩⟩
          rintro rfl
          exact hfresh hother

namespace Contract

variable {contract : Contract} {rules : RuleSet}

/-- The rules of an accepted contract are the built-in ones it leaves on and its
own. -/
theorem compile_eq_ok_iff :
    contract.compile = .ok rules ↔
      (∀ id ∈ contract.disabledRules, id ∈ Builtin.rules.ids) ∧
        ∃ own ownCompound, contract.rules.mapM RuleSpec.compile = .ok own ∧
          contract.compoundRules.mapM CompoundRuleSpec.compile =
            .ok ownCompound ∧
          rules = ⟨contract.builtinPart.elementRules ++ own,
            contract.builtinPart.compoundRules ++ ownCompound⟩ ∧
          rules.ids.Nodup := by
  unfold compile
  cases hunknown : contract.disabledRules.find? fun id =>
    !Builtin.rules.ids.contains id with
  | some id =>
      have hid := List.mem_of_find?_eq_some hunknown
      have hfound := List.find?_some hunknown
      simp only [throw, throwThe, MonadExceptOf.throw, reduceCtorEq, false_iff]
      rintro ⟨hknown, _⟩
      simp [hknown id hid] at hfound
  | none =>
      have hknown : ∀ id ∈ contract.disabledRules, id ∈ Builtin.rules.ids := by
        simpa using hunknown
      rw [and_iff_right hknown]
      simp only [bind_eq_ok_iff]
      constructor
      · rintro ⟨own, hown, ownCompound, hcompound, hrules⟩
        split at hrules
        · contradiction
        · next hfresh =>
            cases hrules
            exact ⟨own, ownCompound, hown, hcompound, rfl,
              ((firstRepeated_eq_none_iff [] _).mp hfresh).1⟩
      · rintro ⟨own, ownCompound, hown, hcompound, rfl, hnodup⟩
        refine ⟨own, hown, ownCompound, hcompound, ?_⟩
        rw [(firstRepeated_eq_none_iff [] _).mpr ⟨hnodup, by simp⟩]
        rfl

theorem ids_nodup_of_compile (haccepted : contract.compile = .ok rules) :
    rules.ids.Nodup := by
  obtain ⟨_, own, ownCompound, _, _, _, hnodup⟩ :=
    compile_eq_ok_iff.mp haccepted
  exact hnodup

theorem mem_builtin_of_mem_builtinPart {id : String}
    (hid : id ∈ contract.builtinPart.ids) : id ∈ Builtin.rules.ids := by
  unfold builtinPart at hid
  split at hid
  · simp only [RuleSet.ids, List.mem_append, List.mem_map, List.mem_filter]
      at hid ⊢
    rcases hid with ⟨rule, ⟨hrule, _⟩, hname⟩ | ⟨rule, ⟨hrule, _⟩, hname⟩
    · exact Or.inl ⟨rule, hrule, hname⟩
    · exact Or.inr ⟨rule, hrule, hname⟩
  · contradiction

/-- Every rule that results has a name. -/
theorem isBlankText_of_mem_ids (haccepted : contract.compile = .ok rules)
    {id : String} (hid : id ∈ rules.ids) : Text.isBlankText id = false := by
  have hbuiltin : ∀ id ∈ Builtin.rules.ids, Text.isBlankText id = false := by
    decide +kernel
  obtain ⟨_, own, ownCompound, hown, hcompound, rfl, _⟩ :=
    compile_eq_ok_iff.mp haccepted
  rw [mapM_eq_ok_iff] at hown hcompound
  simp only [RuleSet.ids, List.map_append, List.mem_append] at hid
  rcases hid with (hleft | hrule) | (hleft | hrule)
  · exact hbuiltin id
      (mem_builtin_of_mem_builtinPart (List.mem_append_left _ hleft))
  · obtain ⟨rule, hmem, rfl⟩ := List.mem_map.mp hrule
    obtain ⟨spec, _, hcompile⟩ := exists_of_mem_forall₂ hown hmem
    obtain ⟨hname, _, clauses, _, rfl⟩ := RuleSpec.compile_eq_ok_iff.mp hcompile
    exact hname
  · exact hbuiltin id
      (mem_builtin_of_mem_builtinPart (List.mem_append_right _ hleft))
  · obtain ⟨rule, hmem, rfl⟩ := List.mem_map.mp hrule
    obtain ⟨spec, _, hcompile⟩ := exists_of_mem_forall₂ hcompound hmem
    obtain ⟨hname, _, _, rfl⟩ := CompoundRuleSpec.compile_eq_ok_iff.mp hcompile
    exact hname

end Contract

end WebConfigAudit
