import Mathlib.Data.List.Perm.Basic
import WebConfigAudit.Proofs.AcceptedContract
import WebConfigAudit.Proofs.Reports
import WebConfigAudit.Proofs.ViolationOrder
/-!
Rules do not interfere.  What a walk says of one rule is what it would say were
that rule alone, and the other rules are not heard differently when it is left
out.
-/

namespace WebConfigAudit

namespace RuleSet

/-- The rules whose names are accepted. -/
def select (rules : RuleSet) (accepts : String → Bool) : RuleSet :=
  ⟨rules.elementRules.filter fun rule => accepts rule.id,
    rules.compoundRules.filter fun rule => accepts rule.id⟩

/-- The rules but for those of one name. -/
def without (rules : RuleSet) (id : String) : RuleSet :=
  rules.select (· != id)

end RuleSet

theorem ElementRule.rule_of_report? {rule : ElementRule} {file : String}
    {node : Node} {found : Violation}
    (hfound : rule.report? file node = some found) : found.rule = rule.id := by
  unfold ElementRule.report? at hfound
  split at hfound
  · cases hfound
    rfl
  · contradiction

theorem CompoundRule.rule_of_report? {rule : CompoundRule} {file : String}
    {nodes : List Node} {found : Violation}
    (hfound : rule.report? file nodes = some found) : found.rule = rule.id := by
  obtain ⟨node, _, rfl⟩ := Option.map_eq_some_iff.mp hfound
  rfl

/-- Choosing among the sources is choosing among what they yield, if the one can
be told from the other. -/
theorem filterMap_filter_of_agree {α β : Type} {yield : α → Option β}
    {source : α → Bool} {result : β → Bool}
    (hagree : ∀ {a b}, yield a = some b → result b = source a) (as : List α) :
    (as.filter source).filterMap yield =
      (as.filterMap yield).filter result := by
  induction as with
  | nil => rfl
  | cons a as ih =>
      cases hyield : yield a with
      | none =>
          rw [List.filterMap_cons_none hyield, ← ih]
          cases hsource : source a with
          | true =>
              rw [List.filter_cons_of_pos hsource,
                List.filterMap_cons_none hyield]
          | false => rw [List.filter_cons_of_neg (by simp [hsource])]
      | some b =>
          rw [List.filterMap_cons_some hyield]
          cases hsource : source a with
          | true =>
              rw [List.filter_cons_of_pos hsource,
                List.filterMap_cons_some hyield, ih,
                List.filter_cons_of_pos (by rw [hagree hyield, hsource])]
          | false =>
              rw [List.filter_cons_of_neg (by simp [hsource]), ih,
                List.filter_cons_of_neg (by simp [hagree hyield, hsource])]

namespace RuleSet

variable (rules : RuleSet) (file : String) (nodes : List Node)

theorem reportsAt_select (accepts : String → Bool) :
    (rules.select accepts).reportsAt file =
      fun node => (rules.reportsAt file node).filter fun found =>
        accepts found.rule := by
  funext node
  exact filterMap_filter_of_agree
    (fun hfound => by rw [ElementRule.rule_of_report? hfound]) _

theorem verdicts_select (accepts : String → Bool) :
    (rules.select accepts).verdicts file nodes =
      (rules.verdicts file nodes).filter fun found => accepts found.rule :=
  filterMap_filter_of_agree
    (fun hfound => by rw [CompoundRule.rule_of_report? hfound]) _

/-- The reports of some of the rules are those of the whole set that carry their
names. -/
theorem reports_select (accepts : String → Bool) :
    (rules.select accepts).reports file nodes =
      (rules.reports file nodes).filter fun found => accepts found.rule := by
  simp only [reports, List.filter_append, List.filter_flatMap, verdicts_select,
    reportsAt_select]

theorem rule_mem_ids_of_mem_reports {found : Violation}
    (hfound : found ∈ rules.reports file nodes) : found.rule ∈ rules.ids := by
  rcases List.mem_append.mp hfound with hfound | hfound
  · obtain ⟨node, _, hfound⟩ := List.mem_flatMap.mp hfound
    obtain ⟨rule, hrule, hreport⟩ := List.mem_filterMap.mp hfound
    rw [ElementRule.rule_of_report? hreport]
    exact List.mem_append_left _ (List.mem_map_of_mem hrule)
  · obtain ⟨rule, hrule, hreport⟩ := List.mem_filterMap.mp hfound
    rw [CompoundRule.rule_of_report? hreport]
    exact List.mem_append_right _ (List.mem_map_of_mem hrule)

theorem reports_perm {others : RuleSet}
    (helement : rules.elementRules.Perm others.elementRules)
    (hcompound : rules.compoundRules.Perm others.compoundRules) :
    (rules.reports file nodes).Perm (others.reports file nodes) := by
  apply List.Perm.append
  · apply List.Perm.flatMap_left
    intro node _
    exact helement.filterMap _
  · exact hcompound.filterMap _

theorem faults_perm {others : RuleSet}
    (helement : rules.elementRules.Perm others.elementRules)
    (hcompound : rules.compoundRules.Perm others.compoundRules) :
    rules.faults nodes = others.faults nodes := by
  have hfaultsAt : rules.faultsAt = others.faultsAt := by
    funext node
    rw [faultsAt, faultsAt, helement.countP_eq, hcompound.countP_eq]
  rw [faults, faults, hfaultsAt]

end RuleSet

/-- Of entries with different keys, one is the only one with its key. -/
theorem filter_key_eq_singleton {α : Type} {key : α → String} {as : List α}
    {a : α} (hnodup : (as.map key).Nodup) (ha : a ∈ as) :
    as.filter (key · == key a) = [a] := by
  induction as with
  | nil => simp at ha
  | cons head tail ih =>
      rw [List.map_cons, List.nodup_cons] at hnodup
      rcases List.mem_cons.mp ha with rfl | ha
      · rw [List.filter_cons_of_pos (by simp), List.filter_eq_nil_iff.mpr]
        intro b hb
        have hne : key b ≠ key a := fun heq =>
          hnodup.1 (heq ▸ List.mem_map_of_mem hb)
        simpa using hne
      · have hne : key head ≠ key a := fun heq =>
          hnodup.1 (heq ▸ List.mem_map_of_mem ha)
        rw [List.filter_cons_of_neg (by simpa using hne), ih hnodup.2 ha]

theorem filter_key_eq_nil {α : Type} {key : α → String} {as : List α}
    {id : String} (hfresh : id ∉ as.map key) :
    as.filter (key · == id) = [] := by
  rw [List.filter_eq_nil_iff]
  intro a ha
  have hne : key a ≠ id := fun heq => hfresh (heq ▸ List.mem_map_of_mem ha)
  simpa using hne

theorem filter_key_ne_eq_self {α : Type} {key : α → String} {as : List α}
    {id : String} (hfresh : id ∉ as.map key) :
    as.filter (key · != id) = as := by
  rw [List.filter_eq_self]
  intro a ha
  have hne : key a ≠ id := fun heq => hfresh (heq ▸ List.mem_map_of_mem ha)
  simpa using hne

namespace RuleSet

variable {rules : RuleSet}

theorem select_elementRule (hnodup : rules.ids.Nodup) {rule : ElementRule}
    (hrule : rule ∈ rules.elementRules) :
    rules.select (· == rule.id) = ⟨[rule], []⟩ := by
  obtain ⟨helement, _, hdisjoint⟩ := List.nodup_append.mp hnodup
  have hfresh : rule.id ∉ rules.compoundRules.map CompoundRule.id := fun hmem =>
    hdisjoint _ (List.mem_map_of_mem hrule) _ hmem rfl
  rw [select, filter_key_eq_singleton helement hrule, filter_key_eq_nil hfresh]

theorem select_compoundRule (hnodup : rules.ids.Nodup) {rule : CompoundRule}
    (hrule : rule ∈ rules.compoundRules) :
    rules.select (· == rule.id) = ⟨[], [rule]⟩ := by
  obtain ⟨_, hcompound, hdisjoint⟩ := List.nodup_append.mp hnodup
  have hfresh : rule.id ∉ rules.elementRules.map ElementRule.id := fun hmem =>
    hdisjoint _ hmem _ (List.mem_map_of_mem hrule) rfl
  rw [select, filter_key_eq_singleton hcompound hrule, filter_key_eq_nil hfresh]

end RuleSet

theorem sum_countP_cons {α : Type} (stumbles : α → Node → Bool) (as : List α)
    (node : Node) (nodes : List Node) :
    (as.map fun a => (node :: nodes).countP (stumbles a)).sum =
      as.countP (stumbles · node) +
        (as.map fun a => nodes.countP (stumbles a)).sum := by
  induction as with
  | nil => rfl
  | cons a as ih =>
      rw [List.map_cons, List.sum_cons, ih, List.map_cons, List.sum_cons,
        List.countP_cons, List.countP_cons]
      omega

namespace RuleSet

variable (rules : RuleSet) (nodes : List Node)

/-- Errors may be counted rule by rule as well as node by node. -/
theorem faults_eq_sum :
    rules.faults nodes =
      (rules.elementRules.map fun rule => nodes.countP rule.stumbles).sum +
        (rules.compoundRules.map fun rule =>
          nodes.countP rule.stumbles).sum := by
  induction nodes with
  | nil => simp [faults]
  | cons node nodes ih =>
      rw [sum_countP_cons, sum_countP_cons]
      simp only [faults, faultsAt, List.map_cons, List.sum_cons] at ih ⊢
      omega

@[simp] theorem faults_elementRule (rule : ElementRule) :
    (⟨[rule], []⟩ : RuleSet).faults nodes = nodes.countP rule.stumbles := by
  simp [faults_eq_sum]

@[simp] theorem faults_compoundRule (rule : CompoundRule) :
    (⟨[], [rule]⟩ : RuleSet).faults nodes = nodes.countP rule.stumbles := by
  simp [faults_eq_sum]

theorem ids_select (accepts : String → Bool) :
    (rules.select accepts).ids = rules.ids.filter accepts := by
  simp only [ids, select, List.filter_append, List.filter_map]
  rfl

theorem ids_nodup_without {rules : RuleSet} (hnodup : rules.ids.Nodup)
    (id : String) : (rules.without id).ids.Nodup := by
  rw [without, ids_select]
  exact hnodup.filter _

end RuleSet

namespace Contract

variable {contract : Contract} {before after : List String} {id : String}

theorem builtinPart_disable
    (hsplit : contract.disabledRules = before ++ after) :
    ({ contract with disabledRules := before ++ id :: after } :
      Contract).builtinPart =
      contract.builtinPart.without id := by
  have hdisabled : ∀ name, (!(before ++ id :: after).contains name) =
      (name != id && !contract.disabledRules.contains name) := by
    intro name
    rw [hsplit, Bool.eq_iff_iff]
    simp [and_left_comm]
  unfold builtinPart usesBuiltinRules
  by_cases hbuiltin : contract.builtinRules.getD true = true
  · simp only [hbuiltin, ↓reduceIte, hdisabled, RuleSet.without, RuleSet.select,
      List.filter_filter]
  · simp only [hbuiltin, Bool.false_eq_true, ↓reduceIte]
    rfl

theorem mem_builtinPart_ids (hbuiltin : contract.usesBuiltinRules = true)
    (hid : id ∈ Builtin.rules.ids) (hon : id ∉ contract.disabledRules) :
    id ∈ contract.builtinPart.ids := by
  have hpart : contract.builtinPart =
      Builtin.rules.select fun name =>
        !contract.disabledRules.contains name := by
    rw [builtinPart, if_pos hbuiltin]
    rfl
  rw [hpart, RuleSet.ids_select, List.mem_filter]
  exact ⟨hid, by simpa using hon⟩

/-- A contract that disables one more of the built-in rules is still accepted,
and means the same rules but for that one. -/
theorem compile_disable {rules : RuleSet}
    (hbuiltin : contract.usesBuiltinRules = true)
    (hsplit : contract.disabledRules = before ++ after)
    (haccepted : contract.compile = .ok rules) (hid : id ∈ Builtin.rules.ids)
    (hon : id ∉ contract.disabledRules) :
    ({ contract with disabledRules := before ++ id :: after } :
      Contract).compile =
      .ok (rules.without id) := by
  obtain ⟨hknown, own, ownCompound, hown, hcompound, rfl, hnodup⟩ :=
    compile_eq_ok_iff.mp haccepted
  -- The name is taken by a built-in rule, so no rule of the contract's own can
  -- have it.
  have hcount := List.nodup_iff_count.mp hnodup id
  have htaken := List.count_pos_iff.mpr (mem_builtinPart_ids hbuiltin hid hon)
  simp only [RuleSet.ids, List.map_append, List.count_append] at hcount htaken
  have hownFresh : id ∉ own.map ElementRule.id :=
    List.count_eq_zero.mp (by omega)
  have hcompoundFresh : id ∉ ownCompound.map CompoundRule.id :=
    List.count_eq_zero.mp (by omega)
  have hownKept : own.filter (fun rule => rule.id != id) = own :=
    filter_key_ne_eq_self hownFresh
  have hcompoundKept : ownCompound.filter (fun rule => rule.id != id) =
      ownCompound :=
    filter_key_ne_eq_self hcompoundFresh
  refine compile_eq_ok_iff.mpr ⟨?_, own, ownCompound, hown, hcompound, ?_,
    RuleSet.ids_nodup_without hnodup id⟩
  · intro name hname
    simp only [List.mem_append, List.mem_cons] at hname
    rw [hsplit] at hknown
    rcases hname with hname | rfl | hname
    · exact hknown name (List.mem_append_left _ hname)
    · exact hid
    · exact hknown name (List.mem_append_right _ hname)
  · rw [builtinPart_disable hsplit]
    simp only [RuleSet.without, RuleSet.select, List.filter_append, hownKept,
      hcompoundKept]

end Contract

/-- What it means that the rules of a set do not interfere over the nodes of a
file. -/
structure RuleSet.Separates (rules : RuleSet) (file : String)
    (nodes : List Node) : Prop where
  /-- A rule on single elements is reported on as if it were the only rule. -/
  elementRule_alone : ∀ rule ∈ rules.elementRules,
    (walkNodes rules file nodes []).1.filter (·.rule == rule.id) =
      (walkNodes ⟨[rule], []⟩ file nodes []).1
  /-- A compound rule is reported on as if it were the only rule. -/
  compoundRule_alone : ∀ rule ∈ rules.compoundRules,
    (walkNodes rules file nodes []).1.filter (·.rule == rule.id) =
      (walkNodes ⟨[], [rule]⟩ file nodes []).1
  /-- Nothing is reported under a name that no rule has. -/
  nothing_else : ∀ id ∉ rules.ids,
    (walkNodes rules file nodes []).1.filter (·.rule == id) = []
  /-- Leaving a rule out takes its reports away and keeps the others as they
  stand. -/
  leaving_out : ∀ id, (walkNodes (rules.without id) file nodes []).1 =
    (walkNodes rules file nodes []).1.filter (·.rule != id)
  /-- The errors are those that the rules make one by one. -/
  errors_add_up : (walkNodes rules file nodes []).2.errors =
    (rules.elementRules.map fun rule =>
      (walkNodes ⟨[rule], []⟩ file nodes []).2.errors).sum +
      (rules.compoundRules.map fun rule =>
        (walkNodes ⟨[], [rule]⟩ file nodes []).2.errors).sum
  /-- Another order of the rules gives another order of the reports, and nothing
  else changes. -/
  any_order : ∀ others : RuleSet, rules.elementRules.Perm others.elementRules →
    rules.compoundRules.Perm others.compoundRules →
      let found := walkNodes rules file nodes []
      let again := walkNodes others file nodes []
      found.1.Perm again.1 ∧ Violation.sort found.1 = Violation.sort again.1 ∧
        found.2 = again.2

/-- Rules with different names do not interfere, and the rules of an accepted
contract have different names.  So a contract that disables one more of the
built-in rules takes just the reports of that rule out of every walk. -/
theorem rules_do_not_interfere :
    (∀ (rules : RuleSet) (file : String) (nodes : List Node), rules.ids.Nodup →
      rules.Separates file nodes) ∧
    (∀ (contract : Contract) (rules : RuleSet), contract.compile = .ok rules →
      rules.ids.Nodup ∧
        ∀ before after id, contract.usesBuiltinRules = true →
          contract.disabledRules = before ++ after → id ∈ Builtin.rules.ids →
          id ∉ contract.disabledRules →
            ∃ fewer : RuleSet,
              ({ contract with disabledRules := before ++ id :: after } :
                Contract).compile =
                  .ok fewer ∧
                ∀ file nodes, (walkNodes fewer file nodes []).1 =
                  (walkNodes rules file nodes []).1.filter (·.rule != id)) := by
  constructor
  · intro rules file nodes hnodup
    constructor
    · intro rule hrule
      simp only [walkNodes_eq, ← RuleSet.select_elementRule hnodup hrule,
        List.nil_append, RuleSet.reports_select]
    · intro rule hrule
      simp only [walkNodes_eq, ← RuleSet.select_compoundRule hnodup hrule,
        List.nil_append, RuleSet.reports_select]
    · intro id hid
      rw [walkNodes_eq, List.nil_append, List.filter_eq_nil_iff]
      intro found hfound heq
      have hmem := RuleSet.rule_mem_ids_of_mem_reports rules file nodes hfound
      exact hid (beq_iff_eq.mp heq ▸ hmem)
    · intro id
      simp only [walkNodes_eq, List.nil_append, RuleSet.without,
        RuleSet.reports_select]
    · simp only [walkNodes_eq, RuleSet.faults_elementRule,
        RuleSet.faults_compoundRule]
      exact rules.faults_eq_sum nodes
    · intro others helement hcompound
      have hperm := rules.reports_perm file nodes helement hcompound
      simp only [walkNodes_eq, List.nil_append]
      refine ⟨hperm, Violation.sort_eq_of_perm hperm, ?_⟩
      rw [hperm.length_eq, rules.faults_perm nodes helement hcompound]
  · intro contract rules haccepted
    refine ⟨Contract.ids_nodup_of_compile haccepted, ?_⟩
    intro before after id hbuiltin hsplit hid hon
    refine ⟨rules.without id,
      Contract.compile_disable hbuiltin hsplit haccepted hid hon, ?_⟩
    intro file nodes
    simp only [walkNodes_eq, List.nil_append, RuleSet.without,
      RuleSet.reports_select]

namespace SeparationWitness

/-- The contract that leaves everything as it is. -/
def contract : Contract := {}

def elmah : String := Builtin.remoteErrorLog.id

/-- The built-in rules with the first two the other way round. -/
def swapped : RuleSet :=
  ⟨[Builtin.expiration, Builtin.cookieless], [Builtin.remoteErrorLog]⟩

def nodes : List Node :=
  [{ Node.element .security Span.nowhere with
      children :=
        [Node.statement "allowRemoteAccess" "'1'" Span.nowhere Span.nowhere] },
   { Node.element .forms Span.nowhere with
      children := [Node.statement "timeout" "'90'" Span.nowhere Span.nowhere] }]

theorem builtin_rules_do_not_interfere :
    Builtin.rules.ids.Nodup ∧
      (walkNodes Builtin.rules "web.config" nodes []).1.filter
        (·.rule == elmah) =
        (walkNodes ⟨[], [Builtin.remoteErrorLog]⟩ "web.config" nodes []).1 ∧
      Builtin.rules.elementRules.Perm swapped.elementRules ∧
      Violation.sort (walkNodes Builtin.rules "web.config" nodes []).1 =
        Violation.sort (walkNodes swapped "web.config" nodes []).1 ∧
      contract.compile = .ok Builtin.rules ∧
      elmah ∈ Builtin.rules.ids ∧ elmah ∉ contract.disabledRules ∧
      ∃ fewer : RuleSet,
        ({ contract with disabledRules := [elmah] } : Contract).compile =
          .ok fewer ∧
          (walkNodes fewer "web.config" nodes []).1 =
            (walkNodes Builtin.rules "web.config" nodes []).1.filter
              (·.rule != elmah) := by
  obtain ⟨hseparate, hcontract⟩ := rules_do_not_interfere
  have hnodup : Builtin.rules.ids.Nodup := by decide
  have hperm : Builtin.rules.elementRules.Perm swapped.elementRules :=
    List.Perm.swap _ _ _
  have haccepted : contract.compile = .ok Builtin.rules := rfl
  have hid : elmah ∈ Builtin.rules.ids := by decide
  have hon : elmah ∉ contract.disabledRules := by decide
  have hapart := hseparate Builtin.rules "web.config" nodes hnodup
  obtain ⟨fewer, hfewer, hwalk⟩ :=
    (hcontract contract Builtin.rules haccepted).2 [] [] elmah rfl rfl hid hon
  exact ⟨hnodup, hapart.compoundRule_alone _ List.mem_cons_self, hperm,
    (hapart.any_order swapped hperm (List.Perm.refl _)).2.1, haccepted, hid,
    hon, fewer, hfewer, hwalk "web.config" nodes⟩

example : (walkNodes Builtin.rules "web.config" nodes []).2 = ⟨2, 3, 0⟩ := by
  decide +kernel

end SeparationWitness

end WebConfigAudit
