import Mathlib.Data.List.Basic
import WebConfigAudit.Audit.Analyzer
import WebConfigAudit.Proofs.Fallible
import WebConfigAudit.Proofs.Reports
/-!
A reader that hands on only the elements a rule set asks for loses nothing.  The
rules neither report nor stumble over any other node, and a reader asked for
fewer kinds gives a part of what it gives when asked for more.
-/

namespace WebConfigAudit

/-- Whether the node is an element of one of the kinds. -/
def Node.isOf (tags : List Tag) (node : Node) : Bool :=
  node.tag?.any tags.contains

theorem Node.isOf_iff {tags : List Tag} {node : Node} :
    node.isOf tags = true ↔ ∃ tag ∈ tags, node.kind = .element tag := by
  unfold Node.isOf Node.tag?
  cases node.kind with
  | element tag => simp
  | _ => simp

theorem Node.kind_ne_of_not_isOf {tags : List Tag} {node : Node} {tag : Tag}
    (hother : node.isOf tags = false) (htag : tag ∈ tags) :
    node.kind ≠ .element tag := by
  intro hkind
  rw [Node.isOf_iff.mpr ⟨tag, htag, hkind⟩] at hother
  contradiction

theorem Clause.evaluate_of_kind_ne {clause : Clause} {node : Node}
    (hkind : node.kind ≠ .element clause.tag) :
    clause.evaluate node = .ok .notApplicable := by
  rw [Clause.evaluate, if_neg hkind]

theorem evaluateClauses_of_kind_ne {sofar : Outcome} {clauses : List Clause}
    {node : Node}
    (hkind : ∀ clause ∈ clauses, node.kind ≠ .element clause.tag) :
    evaluateClauses sofar clauses node = .ok sofar := by
  induction clauses with
  | nil => rfl
  | cons head tail ih =>
      rw [List.forall_mem_cons] at hkind
      rw [evaluateClauses, Clause.evaluate_of_kind_ne hkind.1]
      exact ih hkind.2

namespace RuleSet

variable {rules : RuleSet}

theorem clause_tag_mem {rule : ElementRule} {clause : Clause}
    (hrule : rule ∈ rules.elementRules) (hclause : clause ∈ rule.clauses) :
    clause.tag ∈ rules.tags := by
  apply Tag.mem_sorted.mpr
  apply List.mem_append_left
  rw [List.mem_flatMap]
  exact ⟨rule, hrule, Tag.mem_sorted.mpr (List.mem_map_of_mem hclause)⟩

theorem compound_tags_mem {rule : CompoundRule} {tag : Tag}
    (hrule : rule ∈ rules.compoundRules) (htag : tag ∈ rule.tags) :
    tag ∈ rules.tags := by
  apply Tag.mem_sorted.mpr
  apply List.mem_append_right
  exact List.mem_flatMap.mpr ⟨rule, hrule, htag⟩

variable {node : Node} (hother : node.isOf rules.tags = false)

include hother

theorem evaluate_of_not_isOf {rule : ElementRule}
    (hrule : rule ∈ rules.elementRules) :
    rule.evaluate node = .ok .notApplicable :=
  evaluateClauses_of_kind_ne fun _ hclause =>
    Node.kind_ne_of_not_isOf hother (clause_tag_mem hrule hclause)

theorem not_concerns_of_not_isOf {rule : CompoundRule}
    (hrule : rule ∈ rules.compoundRules) : rule.concerns node = false := by
  have hanchor : rule.anchor.tag ∈ rules.tags :=
    compound_tags_mem hrule (Tag.mem_sorted.mpr (by simp))
  have hcountermand : rule.countermand.tag ∈ rules.tags :=
    compound_tags_mem hrule (Tag.mem_sorted.mpr (by simp))
  simp [CompoundRule.concerns, Node.kind_ne_of_not_isOf hother hanchor,
    Node.kind_ne_of_not_isOf hother hcountermand]

theorem reportsAt_of_not_isOf (file : String) :
    rules.reportsAt file node = [] := by
  rw [reportsAt, List.filterMap_eq_nil_iff]
  intro rule hrule
  apply ElementRule.report?_eq_none
  simp [evaluate_of_not_isOf hother hrule]

theorem faultsAt_of_not_isOf : rules.faultsAt node = 0 := by
  rw [faultsAt, Nat.add_eq_zero_iff, List.countP_eq_zero, List.countP_eq_zero]
  constructor
  · intro rule hrule
    simp [ElementRule.stumbles, evaluate_of_not_isOf hother hrule]
  · intro rule hrule
    simp [CompoundRule.stumbles_eq_false_of_not_concerns
      (not_concerns_of_not_isOf hother hrule)]

end RuleSet

/-- The reports need no other nodes than the elements the rules ask for. -/
theorem RuleSet.reports_filter_isOf (rules : RuleSet) (file : String)
    (nodes : List Node) :
    rules.reports file (nodes.filter (Node.isOf rules.tags)) =
      rules.reports file nodes := by
  have hreportsAt :
      (nodes.filter (Node.isOf rules.tags)).flatMap (rules.reportsAt file) =
        nodes.flatMap (rules.reportsAt file) := by
    induction nodes with
    | nil => rfl
    | cons node nodes ih =>
        cases hof : node.isOf rules.tags with
        | true =>
            rw [List.filter_cons_of_pos hof, List.flatMap_cons,
              List.flatMap_cons, ih]
        | false =>
            rw [List.filter_cons_of_neg (by simp [hof]), List.flatMap_cons,
              reportsAt_of_not_isOf hof, List.nil_append, ih]
  have hverdicts : rules.verdicts file (nodes.filter (Node.isOf rules.tags)) =
      rules.verdicts file nodes := by
    apply List.filterMap_congr
    intro rule hrule
    have hconcerns :
        (nodes.filter (Node.isOf rules.tags)).filter rule.concerns =
          nodes.filter rule.concerns := by
      rw [List.filter_filter]
      apply List.filter_congr
      intro node _
      cases hof : node.isOf rules.tags with
      | true => simp
      | false => simp [not_concerns_of_not_isOf hof hrule]
    rw [CompoundRule.report?, CompoundRule.report?,
      ← Evidence.after_filter_concerns, hconcerns,
      Evidence.after_filter_concerns]
  rw [RuleSet.reports, RuleSet.reports, hreportsAt, hverdicts]

theorem RuleSet.faults_filter_isOf (rules : RuleSet) (nodes : List Node) :
    rules.faults (nodes.filter (Node.isOf rules.tags)) =
      rules.faults nodes := by
  induction nodes with
  | nil => rfl
  | cons node nodes ih =>
      cases hof : node.isOf rules.tags with
      | true =>
          simp only [faults, List.filter_cons_of_pos hof, List.map_cons,
            List.sum_cons] at ih ⊢
          rw [ih]
      | false =>
          rw [List.filter_cons_of_neg (by simp [hof]), ih]
          simp [faults, faultsAt_of_not_isOf hof]

theorem Node.isOf_nodeOfTag {tags : List Tag} {tag : Tag} {span : Span}
    {raw : RawStartTag} :
    (nodeOfTag tag span raw).isOf tags = tags.contains tag := rfl

/-- A reader asked for fewer kinds leaves out the elements of the others and
reads the rest as before. -/
theorem nodeOfElement_of_subset {fewer more : List Tag} (hsub : fewer ⊆ more)
    {element : Xml.Element} {node? : Option Node}
    (hread : nodeOfElement more element = .ok node?) :
    nodeOfElement fewer element = .ok (node?.filter (Node.isOf fewer)) := by
  unfold nodeOfElement at hread ⊢
  cases htag : Tag.ofElementName? (String.ofList element.name) with
  | none =>
      simp only [htag, Except.ok.injEq] at hread
      subst hread
      rfl
  | some tag =>
      simp only [htag] at hread ⊢
      by_cases hmore : tag ∈ more
      · rw [if_pos hmore] at hread
        cases hscan : scanStartTag element.start with
        | error e => simp [hscan] at hread
        | ok raw =>
            simp only [hscan, Except.ok.injEq] at hread
            subst hread
            by_cases hfewer : tag ∈ fewer
            · simp [hfewer, Option.filter, Node.isOf_nodeOfTag]
            · simp [hfewer, Option.filter, Node.isOf_nodeOfTag]
      · rw [if_neg hmore, Except.ok.injEq] at hread
        subst hread
        rw [if_neg fun hfewer => hmore (hsub hfewer)]
        rfl

theorem mapM_ok_map {α β γ ε : Type} {f : α → Except ε β} {g : α → Except ε γ}
    {h : β → γ} (hstep : ∀ {a b}, f a = .ok b → g a = .ok (h b)) {as : List α}
    {bs : List β} (hrun : as.mapM f = .ok bs) : as.mapM g = .ok (bs.map h) := by
  rw [mapM_eq_ok_iff] at hrun ⊢
  rw [List.forall₂_map_right_iff]
  exact hrun.imp fun _ _ hf => hstep hf

theorem readConfiguration_of_subset {fewer more : List Tag}
    (hsub : fewer ⊆ more) {source : String} {nodes : List Node}
    (hread : readConfiguration more source = .ok nodes) :
    readConfiguration fewer source = .ok (nodes.filter (Node.isOf fewer)) := by
  unfold readConfiguration at hread ⊢
  cases helements : Xml.elements? (Text.Cursor.ofText source) with
  | none => simp [helements] at hread
  | some elements =>
      simp only [helements] at hread ⊢
      cases hrun : elements.mapM (nodeOfElement more) with
      | error e => simp [hrun, bind, Except.bind] at hread
      | ok found =>
          simp only [hrun, bind, Except.bind, pure, Except.pure,
            Except.ok.injEq] at hread
          subst hread
          rw [mapM_ok_map (nodeOfElement_of_subset hsub) hrun]
          simp [bind, Except.bind, pure, Except.pure, List.filter_filterMap,
            List.filterMap_map]

/-- Asking the reader only for what the rules look at cannot be noticed.  A walk
reports and stumbles the same on all nodes as on the requested ones, a reader
asked for fewer kinds gives the part of those kinds, and so the analysis of a
text reports what it would report had every kind been read. -/
theorem requested_kinds_suffice (rules : RuleSet) (file : String)
    (sink : List Violation) :
    (∀ nodes : List Node,
      let part :=
        walkNodes rules file (nodes.filter (Node.isOf rules.tags)) sink
      let whole := walkNodes rules file nodes sink
      part.1 = whole.1 ∧ part.2.violations = whole.2.violations ∧
        part.2.errors = whole.2.errors) ∧
    (∀ (fewer more : List Tag) (source : String) (nodes : List Node),
      fewer ⊆ more →
      readConfiguration more source = .ok nodes →
        readConfiguration fewer source = .ok (nodes.filter (Node.isOf fewer))) ∧
    (∀ (source : String) (nodes : List Node), readConfiguration Tag.all source =
      .ok nodes →
      let whole := walkNodes rules file nodes sink
      ∃ summary : WalkSummary,
        ({ rules := rules, hasReader := true } : Analyzer).analyzeSource file
          source sink =
            (.analyzed summary, whole.1) ∧
          summary.violations = whole.2.violations ∧
          summary.errors = whole.2.errors) := by
  have hwalk : ∀ nodes : List Node,
      let part :=
        walkNodes rules file (nodes.filter (Node.isOf rules.tags)) sink
      let whole := walkNodes rules file nodes sink
      part.1 = whole.1 ∧ part.2.violations = whole.2.violations ∧
        part.2.errors = whole.2.errors := by
    intro nodes
    simp [walkNodes_eq, RuleSet.reports_filter_isOf, RuleSet.faults_filter_isOf]
  refine ⟨hwalk, ?_, ?_⟩
  · intro fewer more source nodes hsub hread
    exact readConfiguration_of_subset hsub hread
  · intro source nodes hread
    have hpart : readConfiguration rules.tags source =
        .ok (nodes.filter (Node.isOf rules.tags)) :=
      readConfiguration_of_subset (fun tag _ => Tag.mem_all tag) hread
    obtain ⟨hreports, hviolations, herrors⟩ := hwalk nodes
    refine ⟨(walkNodes rules file (nodes.filter (Node.isOf rules.tags)) sink).2,
      ?_, hviolations, herrors⟩
    simp only [Analyzer.analyzeSource, ↓reduceIte, hpart, hreports]

namespace RequestedKindsWitness

/-- Only trace elements are looked at. -/
def noTrace : ElementRule where
  id := "AvoidTrace"
  clauses := [.of .trace "enabled" (.ofStringPolicy (.mandatoryValue "false"))]

def rules : RuleSet := ⟨[noTrace], []⟩

def text : String := "<web><trace enabled='true'/><forms/></web>"

/-- What the text holds when every kind is asked for. -/
def nodes : List Node := (readConfiguration Tag.all text).toOption.getD []

theorem readConfiguration_text : readConfiguration Tag.all text = .ok nodes :=
  eq_ok_of_isOk [] (by decide +kernel)

theorem trace_alone_suffices :
    rules.tags ⊆ Tag.all ∧ readConfiguration Tag.all text = .ok nodes ∧
      readConfiguration rules.tags text =
        .ok (nodes.filter (Node.isOf rules.tags)) ∧
      (walkNodes rules "web.config"
        (nodes.filter (Node.isOf rules.tags)) []).1 =
        (walkNodes rules "web.config" nodes []).1 ∧
      ∃ summary : WalkSummary,
        ({ rules := rules, hasReader := true } : Analyzer).analyzeSource
          "web.config" text [] =
            (.analyzed summary, (walkNodes rules "web.config" nodes []).1) ∧
          summary.violations =
            (walkNodes rules "web.config" nodes []).2.violations ∧
          summary.errors =
            (walkNodes rules "web.config" nodes []).2.errors := by
  obtain ⟨hwalk, hread, hanalysis⟩ :=
    requested_kinds_suffice rules "web.config" []
  have hsub : rules.tags ⊆ Tag.all := fun tag _ => Tag.mem_all tag
  exact ⟨hsub, readConfiguration_text,
    hread _ _ _ _ hsub readConfiguration_text, (hwalk nodes).1,
    hanalysis text nodes readConfiguration_text⟩

example : (walkNodes rules "web.config" nodes []).2 = ⟨2, 1, 0⟩ := by
  decide +kernel

end RequestedKindsWitness

end WebConfigAudit
