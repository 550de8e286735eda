import WebConfigAudit.Proofs.AcceptedContract
import WebConfigAudit.Proofs.AgreeingReports
import WebConfigAudit.Proofs.Separation
/-!
A violation and the rule it names.  A walk takes the message from the rule at
hand, while the log looks the description up again by the name.  Both say the
same because no two rules of an accepted contract have one name.
-/

namespace WebConfigAudit

open Json (at?)

/-- A rule of either sort. -/
inductive SomeRule where
  | element (rule : ElementRule)
  | compound (rule : CompoundRule)
deriving DecidableEq, Repr

namespace SomeRule

/-- The name of the rule. -/
def id : SomeRule → String
  | .element rule => rule.id
  | .compound rule => rule.id

/-- The description of the rule itself. -/
def description : SomeRule → Option String
  | .element rule => rule.description
  | .compound rule => rule.description

/-- The violation is the rule's own report on one of the nodes, or its verdict
on all of them. -/
def Reports (file : String) (nodes : List Node) (v : Violation) :
    SomeRule → Prop
  | .element rule => ∃ node ∈ nodes, rule.report? file node = some v
  | .compound rule => rule.report? file nodes = some v

end SomeRule

/-- The rules of both sorts, those on single elements first. -/
def RuleSet.entries (rules : RuleSet) : List SomeRule :=
  rules.elementRules.map .element ++ rules.compoundRules.map .compound

theorem RuleSet.map_id_entries (rules : RuleSet) :
    rules.entries.map SomeRule.id = rules.ids := by
  rw [entries, ids, List.map_append, List.map_map, List.map_map]
  rfl

section Reporting

variable {rules : RuleSet} {file : String} {nodes : List Node} {v : Violation}

/-- The violations of a walk are the reports of the rules. -/
theorem RuleSet.mem_reports_iff :
    v ∈ rules.reports file nodes ↔
      ∃ rule ∈ rules.entries, rule.Reports file nodes v := by
  simp only [reports, reportsAt, verdicts, entries, List.mem_append,
    List.mem_flatMap, List.mem_filterMap, List.mem_map]
  constructor
  · rintro (⟨node, hnode, rule, hrule, hreport⟩ | ⟨rule, hrule, hreport⟩)
    · exact ⟨.element rule, Or.inl ⟨rule, hrule, rfl⟩, node, hnode, hreport⟩
    · exact ⟨.compound rule, Or.inr ⟨rule, hrule, rfl⟩, hreport⟩
  · rintro ⟨rule, ⟨single, hrule, rfl⟩ | ⟨compound, hrule, rfl⟩, hreports⟩
    · obtain ⟨node, hnode, hreport⟩ := hreports
      exact Or.inl ⟨node, hnode, single, hrule, hreport⟩
    · exact Or.inr ⟨compound, hrule, hreports⟩

/-- A report names its rule. -/
theorem SomeRule.rule_of_reports {rule : SomeRule}
    (hreports : rule.Reports file nodes v) : v.rule = rule.id := by
  cases rule with
  | element rule =>
      obtain ⟨node, _, hreport⟩ := hreports
      exact ElementRule.rule_of_report? hreport
  | compound rule => exact CompoundRule.rule_of_report? hreports

/-- The message of a report is the description of its rule, if there is one. -/
theorem SomeRule.message_of_reports {rule : SomeRule}
    (hreports : rule.Reports file nodes v) {description : String}
    (hdescription : rule.description = some description) :
    v.message = description := by
  cases rule with
  | element rule =>
      obtain ⟨node, _, hreport⟩ := hreports
      change rule.description = some description at hdescription
      unfold ElementRule.report? at hreport
      split at hreport
      · cases hreport
        rw [hdescription]
      · contradiction
  | compound rule =>
      change rule.description = some description at hdescription
      obtain ⟨node, _, rfl⟩ := Option.map_eq_some_iff.mp hreports
      rw [hdescription]

end Reporting

section Lookup

variable {rules : RuleSet} (hnodup : rules.ids.Nodup)

include hnodup

theorem RuleSet.filter_entries {rule : SomeRule}
    (hrule : rule ∈ rules.entries) :
    rules.entries.filter (SomeRule.id · == rule.id) = [rule] :=
  filter_key_eq_singleton (by rwa [map_id_entries]) hrule

/-- The description that is looked up by a rule's name is the rule's own. -/
theorem RuleSet.descriptionOf?_id {rule : SomeRule}
    (hrule : rule ∈ rules.entries) :
    rules.descriptionOf? rule.id = rule.description := by
  obtain ⟨hsingle, hcompound, hapart⟩ := List.nodup_append.mp hnodup
  rcases List.mem_append.mp hrule with hmem | hmem
  · obtain ⟨single, hsingleMem, rfl⟩ := List.mem_map.mp hmem
    have hfound : rules.elementRules.find? (ElementRule.id · == single.id) =
        some single := by
      rw [← List.head?_filter, filter_key_eq_singleton hsingle hsingleMem,
        List.head?_cons]
    have hnone : rules.compoundRules.find? (CompoundRule.id · == single.id) =
        none := by
      rw [List.find?_eq_none]
      intro other hother hsame
      exact hapart _ (List.mem_map_of_mem hsingleMem) _
        (List.mem_map_of_mem hother) (beq_iff_eq.mp hsame).symm
    change rules.descriptionOf? single.id = single.description
    rw [descriptionOf?, hfound, hnone, Option.bind_some, Option.bind_none,
      Option.or_none]
  · obtain ⟨compound, hcompoundMem, rfl⟩ := List.mem_map.mp hmem
    have hfound : rules.compoundRules.find? (CompoundRule.id · == compound.id) =
        some compound := by
      rw [← List.head?_filter, filter_key_eq_singleton hcompound hcompoundMem,
        List.head?_cons]
    have hnone : rules.elementRules.find? (ElementRule.id · == compound.id) =
        none := by
      rw [List.find?_eq_none]
      intro other hother hsame
      exact hapart _ (List.mem_map_of_mem hother) _
        (List.mem_map_of_mem hcompoundMem) (beq_iff_eq.mp hsame)
    change rules.descriptionOf? compound.id = compound.description
    rw [descriptionOf?, hfound, hnone, Option.bind_none, Option.none_or,
      Option.bind_some]

end Lookup

/-! The descriptions in the log -/

/-- The name of a rule of the log, and its short description. -/
def logDescription? (rule : Json) : Option (String × String) := do
  let id ← (rule.get? "id").bind Json.string?
  let description ← (at? ["shortDescription", "text"] rule).bind Json.string?
  return (id, description)

/-- What the log says of the rules. -/
def logDescriptions? (log : Json) : Option (List (String × String)) := do
  let rules ← at? ["tool", "driver", "rules"] (← logRun? log)
  Record.listOf logDescription? rules

theorem logDescriptions?_toJson (base : Path) (r : AuditResult)
    (rules : RuleSet) :
    logDescriptions? (SarifLog.of base r rules).toJson =
      some ((sarifRuleIds r.violations).map fun id =>
        (id, (rules.descriptionOf? id).getD id)) := by
  obtain ⟨run, hrun, _, hrules⟩ := logRun?_toJson (SarifLog.of base r rules)
  have hrule : ∀ rule : SarifRule, logDescription? rule.toJson =
      some (rule.id, rule.description) := by
    intro rule
    simp [logDescription?, at?, SarifRule.toJson, sarifMessage, Json.get?,
      Json.string?]
  simp only [logDescriptions?, hrun, hrules, Option.bind_eq_bind,
    Option.bind_some]
  rw [Record.listOf_map_eq fun rule _ => hrule rule]
  simp [SarifLog.of, Function.comp_def]

/-- The log describes a rule that is violated just once. -/
theorem filter_logDescriptions {r : AuditResult} {v : Violation}
    (hv : v ∈ r.violations) (describe : String → String) :
    ((sarifRuleIds r.violations).map fun id => (id, describe id)).filter
        (Prod.fst · == v.rule) =
      [(v.rule, describe v.rule)] := by
  have hmem : v.rule ∈ sarifRuleIds r.violations :=
    mem_sarifRuleIds.mpr (List.mem_map_of_mem hv)
  refine @filter_key_eq_singleton _ Prod.fst _ (v.rule, describe v.rule) ?_ ?_
  · rw [List.map_map]
    exact (List.map_id _).symm ▸ nodup_sarifRuleIds r.violations
  · exact List.mem_map_of_mem hmem

/-- Every violation that a walk reports under an accepted contract is the report
of one rule, and there is no other rule of its name.  What is looked up by the
name is that rule's description.  If there is one, it is the message of the
violation and what any log that lists the violation says of the rule; if there
is none, the log gives the name instead. -/
theorem violations_carry_their_description {contract : Contract}
    {rules : RuleSet} (haccepted : contract.compile = .ok rules) (file : String)
    (nodes : List Node) :
    ∀ v ∈ (walkNodes rules file nodes []).1, ∃ rule : SomeRule,
      rule.Reports file nodes v ∧
      rules.entries.filter (SomeRule.id · == v.rule) = [rule] ∧
      rules.descriptionOf? v.rule = rule.description ∧
      (∀ description, rule.description = some description →
        v.message = description) ∧
      ∀ (base : Path) (r : AuditResult), v ∈ r.violations →
        ∃ log described, Json.read (sarifReport base r rules) = some log ∧
          logDescriptions? log = some described ∧
          described.filter (Prod.fst · == v.rule) =
            [(v.rule, rule.description.getD v.rule)] := by
  intro v hv
  rw [walkNodes_eq, List.nil_append] at hv
  obtain ⟨rule, hrule, hreports⟩ := RuleSet.mem_reports_iff.mp hv
  have hnodup := Contract.ids_nodup_of_compile haccepted
  have hname := SomeRule.rule_of_reports hreports
  have hdescription : rules.descriptionOf? v.rule = rule.description := by
    rw [hname, RuleSet.descriptionOf?_id hnodup hrule]
  refine ⟨rule, hreports, ?_, hdescription, ?_, ?_⟩
  · rw [hname]
    exact RuleSet.filter_entries hnodup hrule
  · intro description hsome
    exact SomeRule.message_of_reports hreports hsome
  · intro base r hlisted
    refine ⟨_, _, read_sarifReport base r rules,
      logDescriptions?_toJson base r rules, ?_⟩
    rw [filter_logDescriptions hlisted, hdescription]

namespace DescribedViolationsWitness

/-- A rule without a description beside the built-in ones, and a rule on two
elements. -/
def contract : Contract where
  disabledRules := ["AvoidElmahEnabledInProduction"]
  rules :=
    [{ id := "AvoidTracing"
       checks :=
        [{ tag := .trace, attributeName := "enabled", domain := .string
           policy := some .forbiddenValue, value := some (.text "true") }] }]
  compoundRules :=
    [{ id := "AvoidRemoteTrace",
       description := some "Traces are shown to remote users"
       anchor := { tag := .trace, attributeName := "enabled" }
       countermand := { tag := .trace, attributeName := "localOnly",
                        value := .text "true" } }]

def rules : RuleSet := contract.compile.toOption.getD {}

theorem compile_contract : contract.compile = .ok rules := by decide +kernel

def trace : Node :=
  { Node.element .trace ⟨⟨2, 3⟩, ⟨2, 26⟩⟩ with
    children :=
      [Node.statement "enabled" "\"true\"" Span.nowhere Span.nowhere] }

/-- The same trace is reported by both rules. -/
def tracing : Violation :=
  ⟨"web.config", "AvoidTracing", trace.span,
    "trace element violates AvoidTracing"⟩

def remoteTrace : Violation :=
  ⟨"web.config", "AvoidRemoteTrace", trace.span,
    "Traces are shown to remote users"⟩

theorem walkNodes_trace :
    (walkNodes rules "web.config" [trace] []).1 = [tracing, remoteTrace] := by
  decide +kernel

theorem both_reports_are_described :
    contract.compile = .ok rules ∧
      [tracing, remoteTrace] = (walkNodes rules "web.config" [trace] []).1 ∧
      (∃ log described,
          Json.read (sarifReport ⟨""⟩
            { violations := [tracing, remoteTrace] } rules) =
            some log ∧ logDescriptions? log = some described ∧
        described.filter (Prod.fst · == "AvoidTracing") =
          [("AvoidTracing", "AvoidTracing")]) ∧
      rules.descriptionOf? "AvoidRemoteTrace" = some remoteTrace.message := by
  have hwalk := walkNodes_trace
  have hdescribed :=
    violations_carry_their_description compile_contract "web.config" [trace]
  rw [hwalk] at hdescribed
  obtain ⟨plain, _, _, hplain, _, hlogged⟩ := hdescribed tracing (by simp)
  obtain ⟨told, _, _, htold, hmessage, _⟩ := hdescribed remoteTrace (by simp)
  have hundescribed : rules.descriptionOf? "AvoidTracing" = none := by
    decide +kernel
  have hdescription : rules.descriptionOf? "AvoidRemoteTrace" =
      some "Traces are shown to remote users" := by decide +kernel
  rw [show tracing.rule = "AvoidTracing" from rfl, hundescribed] at hplain
  rw [← hplain] at hlogged
  refine ⟨compile_contract, hwalk.symm, hlogged ⟨""⟩ _ (by simp), ?_⟩
  have hsame : told.description = some "Traces are shown to remote users" :=
    htold ▸ hdescription
  rw [hmessage _ hsame]
  exact hdescription

end DescribedViolationsWitness

end WebConfigAudit
