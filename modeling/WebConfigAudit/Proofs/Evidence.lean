import WebConfigAudit.Rule.Compound
/-!
What a run over any nodes leaves behind for one compound rule.  The last anchor
of the run is the one kept, a countermand is never forgotten, and nodes that are
no elements of the rule's two kinds leave no trace.
-/

namespace WebConfigAudit

/-- The attribute that an element of the given kind has under a name.  Nodes of
other kinds have no attribute, and looking for one is no error. -/
def Node.attributeAs? (node : Node) (tag : Tag) (name : String) :
    Except NodeError (Option AttributeMatch) :=
  if node.kind = .element tag then node.findAttribute? name else .ok none

/-- Whether the look-up succeeds and finds a value that is accepted in its
normalized form. -/
def Node.hasValue (node : Node) (tag : Tag) (name : String)
    (accepts : String → Bool) : Bool :=
  match node.attributeAs? tag name with
  | .ok (some found) => accepts found.normalizedValue
  | _ => false

/-- Whether the look-up ends at a malformed statement. -/
def Node.failsLookup (node : Node) (tag : Tag) (name : String) : Bool :=
  match node.attributeAs? tag name with
  | .ok _ => false
  | .error _ => true

theorem Node.hasValue_eq_true_iff {node : Node} {tag : Tag} {name : String}
    {accepts : String → Bool} :
    node.hasValue tag name accepts = true ↔
      node.kind = .element tag ∧
        ∃ found, node.findAttribute? name = .ok (some found) ∧
          accepts found.normalizedValue = true := by
  unfold Node.hasValue Node.attributeAs?
  by_cases hkind : node.kind = .element tag
  · simp only [hkind, ↓reduceIte, true_and]
    rcases node.findAttribute? name with e | found?
    · simp
    · cases found? with
      | none => simp
      | some found => simp
  · simp [hkind]

theorem Node.failsLookup_eq_true_iff {node : Node} {tag : Tag} {name : String} :
    node.failsLookup tag name = true ↔
      node.kind = .element tag ∧ ∃ e, node.findAttribute? name = .error e := by
  unfold Node.failsLookup Node.attributeAs?
  by_cases hkind : node.kind = .element tag
  · simp only [hkind, ↓reduceIte, true_and]
    cases node.findAttribute? name with
    | error e => simp
    | ok found? => simp
  · simp [hkind]

namespace CompoundRule

variable (rule : CompoundRule) (node : Node)

/-- Whether the node is an anchor of the rule: an element of the anchor's kind
with an affirmative value. -/
def isAnchor : Bool :=
  node.hasValue rule.anchor.tag rule.anchor.attributeName
    rule.anchor.affirmative.contains

/-- Whether looking for the anchor's attribute on the node is an error. -/
def anchorFails : Bool :=
  node.failsLookup rule.anchor.tag rule.anchor.attributeName

/-- Whether the node has the countermand's value. -/
def isCountermand : Bool :=
  node.hasValue rule.countermand.tag rule.countermand.attributeName
    (· == rule.countermand.value)

/-- Whether looking for the countermand's attribute on the node is an error. -/
def countermandFails : Bool :=
  node.failsLookup rule.countermand.tag rule.countermand.attributeName

/-- Whether the node counts as a countermand.  One whose anchor look-up is an
error does not, since the look at the node ends there. -/
def countermands : Bool :=
  rule.isCountermand node && !rule.anchorFails node

/-- Whether the look at the node is cut short by an error in either half. -/
def stumbles : Bool :=
  rule.anchorFails node || rule.countermandFails node

/-- Whether the node is an element of one of the rule's two kinds. -/
def concerns : Bool :=
  node.kind == .element rule.anchor.tag ||
    node.kind == .element rule.countermand.tag

variable {rule node}

theorem isAnchor_eq_false_of_anchorFails
    (hfails : rule.anchorFails node = true) : rule.isAnchor node = false := by
  obtain ⟨_, e, he⟩ := Node.failsLookup_eq_true_iff.mp hfails
  rw [isAnchor, Bool.eq_false_iff, ne_eq, Node.hasValue_eq_true_iff]
  rintro ⟨_, found, hfound, _⟩
  rw [he] at hfound
  contradiction

theorem kind_ne_of_not_concerns (hother : rule.concerns node = false) :
    node.kind ≠ .element rule.anchor.tag ∧
      node.kind ≠ .element rule.countermand.tag := by
  simpa [concerns] using hother

theorem isAnchor_eq_false_of_not_concerns
    (hother : rule.concerns node = false) : rule.isAnchor node = false := by
  simp [isAnchor, Node.hasValue, Node.attributeAs?,
    kind_ne_of_not_concerns hother]

theorem countermands_eq_false_of_not_concerns
    (hother : rule.concerns node = false) : rule.countermands node = false := by
  simp [countermands, isCountermand, Node.hasValue, Node.attributeAs?,
    kind_ne_of_not_concerns hother]

theorem stumbles_eq_false_of_not_concerns
    (hother : rule.concerns node = false) : rule.stumbles node = false := by
  simp [stumbles, anchorFails, countermandFails, Node.failsLookup,
    Node.attributeAs?, kind_ne_of_not_concerns hother]

end CompoundRule

namespace Evidence

variable (rule : CompoundRule) (seen : Evidence) (node : Node)

theorem noteAnchor_eq :
    seen.noteAnchor rule node =
      (node.attributeAs? rule.anchor.tag rule.anchor.attributeName).map fun _ =>
        { seen with
          anchor := if rule.isAnchor node then some node
            else seen.anchor } := by
  unfold noteAnchor CompoundRule.isAnchor Node.hasValue Node.attributeAs?
  by_cases hkind : node.kind = .element rule.anchor.tag
  · simp only [hkind, ↓reduceIte]
    rcases node.findAttribute? rule.anchor.attributeName with e | found?
    · rfl
    · cases found? with
      | none => rfl
      | some found =>
          by_cases hvalue :
              rule.anchor.affirmative.contains found.normalizedValue = true
          · simp only [Except.map, hvalue, ↓reduceIte]
          · simp only [Except.map, hvalue, Bool.false_eq_true, ↓reduceIte]
  · simp [hkind, Except.map]

theorem noteCountermand_eq :
    seen.noteCountermand rule node =
      (node.attributeAs? rule.countermand.tag
        rule.countermand.attributeName).map fun _ =>
          { seen with countermanded :=
              seen.countermanded || rule.isCountermand node } := by
  unfold noteCountermand CompoundRule.isCountermand Node.hasValue
    Node.attributeAs?
  by_cases hkind : node.kind = .element rule.countermand.tag
  · simp only [hkind, ↓reduceIte]
    rcases node.findAttribute? rule.countermand.attributeName with e | found?
    · rfl
    · cases found? with
      | none => simp [Except.map]
      | some found =>
          by_cases hvalue : found.normalizedValue = rule.countermand.value
          · simp [Except.map, hvalue]
          · simp [Except.map, hvalue, beq_eq_false_iff_ne.mpr hvalue]
  · simp [hkind, Except.map]

/-- What one observation adds, whether or not it is cut short. -/
theorem observe_fst :
    (seen.observe rule node).1 =
      { anchor := if rule.isAnchor node then some node else seen.anchor
        countermanded := seen.countermanded || rule.countermands node } := by
  rw [observe, noteAnchor_eq]
  cases hanchor :
    node.attributeAs? rule.anchor.tag rule.anchor.attributeName with
  | error e =>
      have hfails : rule.anchorFails node = true := by
        simp [CompoundRule.anchorFails, Node.failsLookup, hanchor]
      simp [Except.map, CompoundRule.countermands, hfails,
        CompoundRule.isAnchor_eq_false_of_anchorFails hfails]
  | ok found? =>
      have hfails : rule.anchorFails node = false := by
        simp [CompoundRule.anchorFails, Node.failsLookup, hanchor]
      simp only [Except.map, noteCountermand_eq,
        CompoundRule.countermands, hfails]
      cases hlookup : node.attributeAs? rule.countermand.tag
        rule.countermand.attributeName with
      | error e => simp [CompoundRule.isCountermand, Node.hasValue, hlookup]
      | ok found? => simp

/-- Whether an observation is cut short is a matter of the node, not of what was
seen before. -/
theorem observe_snd_isSome :
    (seen.observe rule node).2.isSome = rule.stumbles node := by
  rw [observe, noteAnchor_eq]
  cases hanchor :
    node.attributeAs? rule.anchor.tag rule.anchor.attributeName with
  | error e =>
      simp [Except.map, CompoundRule.stumbles, CompoundRule.anchorFails,
        Node.failsLookup, hanchor]
  | ok found? =>
      simp only [Except.map, noteCountermand_eq]
      cases hlookup : node.attributeAs? rule.countermand.tag
        rule.countermand.attributeName with
      | error e =>
          simp [CompoundRule.stumbles, CompoundRule.countermandFails,
            Node.failsLookup, hlookup]
      | ok found? =>
          simp [CompoundRule.stumbles, CompoundRule.anchorFails,
            CompoundRule.countermandFails, Node.failsLookup, hanchor, hlookup]

/-- The evidence once the nodes were observed in order, errors passed over. -/
def after (rule : CompoundRule) (seen : Evidence) (nodes : List Node) :
    Evidence :=
  nodes.foldl (fun seen node => (seen.observe rule node).1) seen

@[simp] theorem after_nil : seen.after rule [] = seen := rfl

@[simp] theorem after_cons (nodes : List Node) :
    seen.after rule (node :: nodes) =
      (seen.observe rule node).1.after rule nodes := rfl

/-- A later anchor takes the place of an earlier one, so the last of the run is
kept. -/
theorem after_anchor (nodes : List Node) :
    (seen.after rule nodes).anchor =
      (nodes.filter rule.isAnchor).getLast?.or seen.anchor := by
  induction nodes generalizing seen with
  | nil => simp
  | cons node nodes ih =>
      rw [after_cons, ih, observe_fst]
      by_cases hanchor : rule.isAnchor node = true
      · simp only [hanchor, ↓reduceIte, List.filter_cons_of_pos,
          List.getLast?_cons]
        cases (nodes.filter rule.isAnchor).getLast? <;> rfl
      · simp [hanchor]

theorem after_countermanded (nodes : List Node) :
    (seen.after rule nodes).countermanded =
      (seen.countermanded || nodes.any rule.countermands) := by
  induction nodes generalizing seen with
  | nil => simp
  | cons node nodes ih =>
      rw [after_cons, ih, observe_fst, List.any_cons, Bool.or_assoc]

/-- Nodes that the rule is not concerned with may be left out. -/
theorem after_filter_concerns (nodes : List Node) :
    seen.after rule (nodes.filter rule.concerns) = seen.after rule nodes := by
  induction nodes generalizing seen with
  | nil => rfl
  | cons node nodes ih =>
      cases hconcerns : rule.concerns node with
      | true =>
          rw [List.filter_cons_of_pos hconcerns, after_cons, after_cons, ih]
      | false =>
          have hsame : (seen.observe rule node).1 = seen := by
            simp [observe_fst,
              CompoundRule.isAnchor_eq_false_of_not_concerns hconcerns,
              CompoundRule.countermands_eq_false_of_not_concerns hconcerns]
          rw [List.filter_cons_of_neg (by simp [hconcerns]), after_cons,
            hsame, ih]

theorem verdict_eq_none_of_countermanded {seen : Evidence}
    (hseen : seen.countermanded = true) : seen.verdict = none := by
  simp [verdict, hseen]

/-- A run from the start ends with a verdict if it met an anchor and no
countermand. -/
theorem after_verdict_isSome (nodes : List Node) :
    (Evidence.after rule {} nodes).verdict.isSome =
      (nodes.any rule.isAnchor && !nodes.any rule.countermands) := by
  rw [verdict, after_countermanded, after_anchor]
  cases hany : nodes.any rule.countermands with
  | true => simp
  | false =>
      rw [Bool.eq_iff_iff]
      simp

end Evidence

/-- The evidence of a run over any nodes: the last anchor, whether some node
countermands, and what follows for the verdict.  It is given in every order of
the nodes or in none, nodes that are no elements of the rule's kinds may come
and go, and a countermand settles the matter for good. -/
theorem evidence_of_run (rule : CompoundRule) (nodes : List Node) :
    let seen := Evidence.after rule {} nodes
    seen.anchor = (nodes.filter rule.isAnchor).getLast? ∧
      (seen.countermanded = true ↔
        ∃ node ∈ nodes, rule.isCountermand node = true ∧
        rule.anchorFails node = false) ∧
      (∀ others, nodes.Perm others →
        (Evidence.after rule {} others).verdict.isSome = seen.verdict.isSome) ∧
      (∀ others, others.filter rule.concerns = nodes.filter rule.concerns →
        Evidence.after rule {} others = seen) ∧
      (seen.countermanded = true →
        ∀ more, (seen.after rule more).verdict = none) := by
  refine ⟨?_, ?_, ?_, ?_, ?_⟩
  · simp [Evidence.after_anchor]
  · simp [Evidence.after_countermanded, CompoundRule.countermands]
  · intro others hperm
    rw [Evidence.after_verdict_isSome, Evidence.after_verdict_isSome,
      hperm.any_eq, hperm.any_eq]
  · intro others hagree
    rw [← Evidence.after_filter_concerns, hagree,
      Evidence.after_filter_concerns]
  · intro hcountermanded more
    apply Evidence.verdict_eq_none_of_countermanded
    rw [Evidence.after_countermanded, hcountermanded, Bool.true_or]

namespace EvidenceWitness

/-- Tracing must not be on unless the same kind of element keeps it to local
users. -/
def rule : CompoundRule where
  id := "AvoidRemoteTrace"
  anchor := .of .trace "enabled" ["true"]
  countermand := .of .trace "localOnly" "true"

def traceWith (statements : List Node) : Node :=
  { Node.element .trace Span.nowhere with children := statements }

def enabled : Node :=
  traceWith [Node.statement "enabled" "'True'" Span.nowhere Span.nowhere]

def localOnly : Node :=
  traceWith [Node.statement "LOCALONLY" "\" true \"" Span.nowhere Span.nowhere]

/-- The first statement has no value, so the second one is not looked at. -/
def broken : Node :=
  traceWith
    [{ kind := .statement, text := "enabled", span := Span.nowhere
       children := [{ kind := .attributeName, text := "enabled",
                      span := Span.nowhere }] },
     Node.statement "localOnly" "\"true\"" Span.nowhere Span.nowhere]

def stranger : Node := Node.element .forms Span.nowhere

theorem run_of_one_kind :
    [enabled, broken].Perm [broken, enabled] ∧
      (Evidence.after rule {} [broken, enabled]).verdict.isSome =
        (Evidence.after rule {} [enabled, broken]).verdict.isSome ∧
      [enabled, stranger, broken].filter rule.concerns =
        [enabled, broken].filter rule.concerns ∧
      Evidence.after rule {} [enabled, stranger, broken] =
        Evidence.after rule {} [enabled, broken] ∧
      (Evidence.after rule {} [localOnly, enabled]).countermanded = true ∧
      ((Evidence.after rule {} [localOnly, enabled]).after rule
        [enabled]).verdict = none := by
  have hperm : [enabled, broken].Perm [broken, enabled] :=
    List.Perm.swap broken enabled []
  have hagree : [enabled, stranger, broken].filter rule.concerns =
      [enabled, broken].filter rule.concerns := rfl
  have hcountermanded :
      (Evidence.after rule {} [localOnly, enabled]).countermanded = true := by
    decide +kernel
  obtain ⟨_, _, horder, hothers, _⟩ := evidence_of_run rule [enabled, broken]
  obtain ⟨_, _, _, _, hsettled⟩ := evidence_of_run rule [localOnly, enabled]
  exact ⟨hperm, horder _ hperm, hagree, hothers _ hagree, hcountermanded,
    hsettled hcountermanded [enabled]⟩

example : (Evidence.after rule {} [enabled, broken]).verdict.isSome = true := by
  decide +kernel

end EvidenceWitness

end WebConfigAudit
