import WebConfigAudit.Proofs.ExactAttribute
import WebConfigAudit.Proofs.Spelling
/-!
The order of attributes.  A look-up takes the first statement that it can, so
the order is seen only where it could take several.  Where there is one at most,
the statements may stand in any order, among any others that no rule looks for,
and a walk reports the same.
-/

namespace WebConfigAudit

open Text (lowerChars)

/-- Every attribute statement of the node has both its tokens. -/
def Node.StatesFully (node : Node) : Prop :=
  ∀ child ∈ node.children, child.kind = .statement → ∃ a, child.tokens = .ok a

namespace RuleSet

variable (rules : RuleSet)

/-- The names that the rules look for on elements of a kind. -/
def namesFor (tag : Tag) : List String :=
  ((rules.elementRules.flatMap ElementRule.clauses).filter fun clause =>
    clause.tag = tag).map
      Clause.attributeName ++
    (((rules.compoundRules.map CompoundRule.anchor).filter fun anchor =>
      anchor.tag = tag).map
        Anchor.attributeName ++
      ((rules.compoundRules.map CompoundRule.countermand).filter fun c =>
        c.tag = tag).map
        Countermand.attributeName)

/-- Whether a child can end a look-up of the rules on elements of a kind: an
attribute statement whose name begins with a name that they look for there, or
that has no name token. -/
def bears (tag : Tag) (child : Node) : Bool :=
  (rules.namesFor tag).any fun name => child.settles (lowerChars name.toList)

/-- No name that the rules look for on the node begins the names of two
attributes. -/
def FindsOne (node : Node) : Prop :=
  ∀ tag, node.kind = .element tag → ∀ name ∈ rules.namesFor tag,
    (node.attributes.countP fun a => a.begins name) ≤ 1

/-- The second node is the first with its attribute statements in another order,
and with other statements put in or left out whose names begin with no name that
the rules look for. -/
structure Rearranges (node other : Node) : Prop where
  kind : other.kind = node.kind
  text : other.text = node.text
  span : other.span = node.span
  rest : (other.children.filter fun child => child.kind != .statement) =
    node.children.filter fun child => child.kind != .statement
  bearing : ∀ tag, node.kind = .element tag →
    (other.children.filter (rules.bears tag)).Perm
      (node.children.filter (rules.bears tag))

theorem mem_namesFor_of_looksFor {rules : RuleSet} {tag : Tag} {name : String}
    (hlooks : rules.LooksFor tag name) : name ∈ rules.namesFor tag := by
  rw [namesFor, List.mem_append, List.mem_append]
  cases hlooks with
  | clause rule clause hrule hclause htag hname =>
      have hmem : clause ∈ rules.elementRules.flatMap ElementRule.clauses :=
        List.mem_flatMap_of_mem hrule hclause
      exact Or.inl
        (hname ▸ List.mem_map_of_mem
          (List.mem_filter.mpr ⟨hmem, by simp [htag]⟩))
  | anchor rule hrule htag hname =>
      have hmem := List.mem_map_of_mem (f := CompoundRule.anchor) hrule
      exact Or.inr (Or.inl
        (hname ▸ List.mem_map_of_mem
          (List.mem_filter.mpr ⟨hmem, by simp [htag]⟩)))
  | countermand rule hrule htag hname =>
      have hmem := List.mem_map_of_mem (f := CompoundRule.countermand) hrule
      exact Or.inr (Or.inr
        (hname ▸ List.mem_map_of_mem
          (List.mem_filter.mpr ⟨hmem, by simp [htag]⟩)))

end RuleSet

section Lookup

theorem find?_eq_of_perm {α : Type} {p : α → Bool} {as bs : List α}
    (hperm : bs.Perm as) (hone : as.countP p ≤ 1) :
    bs.find? p = as.find? p := by
  have hfound : (bs.filter p).Perm (as.filter p) := hperm.filter p
  rw [List.countP_eq_length_filter] at hone
  rw [← List.head?_filter, ← List.head?_filter]
  rcases Nat.le_one_iff_eq_zero_or_eq_one.mp hone with hnone | hsingle
  · rw [List.length_eq_zero_iff.mp hnone] at hfound ⊢
    rw [hfound.eq_nil]
  · obtain ⟨a, ha⟩ := List.length_eq_one_iff.mp hsingle
    rw [ha] at hfound ⊢
    rw [List.perm_singleton.mp hfound]

/-- What a test looks for is found among the entries that pass another, if it
passes that too. -/
theorem find?_filter_of_imp {α : Type} {p q : α → Bool} {as : List α}
    (himp : ∀ a, q a = true → p a = true) :
    (as.filter p).find? q = as.find? q := by
  rw [List.find?_filter]
  congr 1
  funext a
  rw [Bool.eq_iff_iff, decide_eq_true_iff]
  exact ⟨And.right, fun hq => ⟨himp a hq, hq⟩⟩

variable {rules : RuleSet} {node other : Node} {tag : Tag} {name : String}

theorem Node.StatesFully.countP_settles (hfully : node.StatesFully)
    (name : String) :
    node.children.countP (Node.settles (lowerChars name.toList)) =
      node.attributes.countP fun a => a.begins name := by
  rw [Node.attributes, List.countP_filterMap]
  refine List.countP_congr fun child hchild => ?_
  by_cases hkind : child.kind = .statement
  · obtain ⟨a, htokens⟩ := hfully child hchild hkind
    rw [Node.stated?, if_pos hkind, htokens]
    unfold Node.tokens at htokens
    split at htokens
    · contradiction
    · contradiction
    · next name' value others hchildren =>
        cases htokens
        simp [Node.settles, hkind, hchildren, Except.toOption,
          AttributeMatch.begins]
  · simp [Node.settles, hkind, Node.stated?_of_kind_ne hkind]

namespace RuleSet.Rearranges

theorem symm (hrearranges : rules.Rearranges node other) :
    rules.Rearranges other node where
  kind := hrearranges.kind.symm
  text := hrearranges.text.symm
  span := hrearranges.span.symm
  rest := hrearranges.rest.symm
  bearing tag htag := (hrearranges.bearing tag (hrearranges.kind ▸ htag)).symm

theorem trans {third : Node} (hfirst : rules.Rearranges node other)
    (hsecond : rules.Rearranges other third) : rules.Rearranges node third where
  kind := hsecond.kind.trans hfirst.kind
  text := hsecond.text.trans hfirst.text
  span := hsecond.span.trans hfirst.span
  rest := hsecond.rest.trans hfirst.rest
  bearing tag htag :=
    (hsecond.bearing tag (hfirst.kind.trans htag)).trans
      (hfirst.bearing tag htag)

/-- The children in another order, in which only statements have changed their
places. -/
theorem of_perm {children : List Node} (hperm : children.Perm node.children)
    (hrest : (children.filter fun child => child.kind != .statement) =
      node.children.filter fun child => child.kind != .statement) :
    rules.Rearranges node { node with children := children } where
  kind := rfl
  text := rfl
  span := rfl
  rest := hrest
  bearing _ _ := hperm.filter _

/-- A statement put in that no look-up of the rules can end at. -/
theorem of_insert (before after : List Node) {child : Node}
    (hchildren : node.children = before ++ after)
    (hkind : child.kind = .statement)
    (hbears : ∀ tag, node.kind = .element tag → rules.bears tag child = false) :
    rules.Rearranges node { node with children := before ++ child :: after }
      where
  kind := rfl
  text := rfl
  span := rfl
  rest := by simp [hchildren, hkind]
  bearing tag htag := by simp [hchildren, hbears tag htag]

section Walk

variable (hrearranges : rules.Rearranges node other)

include hrearranges

theorem location_eq : other.location = node.location := by
  have hname : other.tagName? = node.tagName? := by
    have hpasses (child : Node) (hkind : (child.kind == .tagName) = true) :
        (child.kind != .statement) = true := by
      rw [beq_iff_eq] at hkind
      rw [hkind]
      rfl
    rw [Node.tagName?, Node.tagName?, ← find?_filter_of_imp hpasses,
      List.filter_reverse, hrearranges.rest, ← List.filter_reverse,
      find?_filter_of_imp hpasses]
  rw [Node.location, Node.location, hname, hrearranges.span]

theorem findAttribute?_eq (hfully : node.StatesFully)
    (hone : rules.FindsOne node) (htag : node.kind = .element tag)
    (hname : name ∈ rules.namesFor tag) :
    other.findAttribute? name = node.findAttribute? name := by
  have hbears (child : Node)
        (hsettles : child.settles (lowerChars name.toList) = true) :
      rules.bears tag child = true :=
    List.any_eq_true.mpr ⟨name, hname, hsettles⟩
  have hsettle : (node.children.filter (rules.bears tag)).countP
      (Node.settles (lowerChars name.toList)) ≤ 1 := by
    refine Nat.le_trans (List.filter_sublist.countP_le) ?_
    rw [hfully.countP_settles]
    exact hone tag htag name hname
  have hfound := find?_eq_of_perm (hrearranges.bearing tag htag) hsettle
  rw [find?_filter_of_imp hbears, find?_filter_of_imp hbears] at hfound
  rw [Node.findAttribute?_eq, Node.findAttribute?_eq, Node.settledAttribute?,
    Node.settledAttribute?, hfound]

theorem seesAlike (hfully : node.StatesFully) (hone : rules.FindsOne node) :
    rules.SeesAlike node other where
  kind := hrearranges.kind
  text _ _ := hrearranges.text
  location _ _ := hrearranges.location_eq
  reading tag name htag hlooks := by
    rw [Node.reading, Node.reading,
      hrearranges.findAttribute?_eq hfully hone htag
        (RuleSet.mem_namesFor_of_looksFor hlooks)]

end Walk

end RuleSet.Rearranges

end Lookup

/-- Where no name that the rules look for begins the names of two attributes of
one element, neither the order of the attribute statements nor the presence of
others shows in a walk: its reports and its counts are the same. -/
theorem walk_ignores_attribute_order (rules : RuleSet) (file : String)
    {nodes others : List Node} (hfully : ∀ node ∈ nodes, node.StatesFully)
    (hone : ∀ node ∈ nodes, rules.FindsOne node)
    (hnodes : List.Forall₂ rules.Rearranges nodes others)
    (sink : List Violation) :
    walkNodes rules file others sink = walkNodes rules file nodes sink := by
  refine walkNodes_eq_of_seesAlike ?_ file sink
  induction hnodes with
  | nil => exact .nil
  | cons hnode _ ih =>
      rw [List.forall_mem_cons] at hfully hone
      exact .cons (hnode.seesAlike hfully.1 hone.1) (ih hfully.2 hone.2)

namespace AttributeOrderWitness

/-- Two clauses and an anchor on one kind of element. -/
def rules : RuleSet where
  elementRules :=
    [{ id := "AvoidDebugging"
       clauses :=
        [.of .compilation "debug" (.ofStringPolicy (.forbiddenValue "true")),
         .of .compilation "batch"
           (.ofStringPolicy (.forbiddenValue "false"))] }]
  compoundRules :=
    [{ id := "AvoidShownErrors"
       anchor := .of .compilation "debug" ["true"]
       countermand := .of .customErrors "mode" "on" }]

def statement (name value : String) : Node :=
  Node.statement name value Span.nowhere Span.nowhere

def token : Node :=
  { kind := .tagName, text := "compilation", span := ⟨⟨2, 4⟩, ⟨2, 15⟩⟩ }

def compilationWith (statements : List Node) : Node :=
  { Node.element .compilation ⟨⟨2, 3⟩, ⟨2, 60⟩⟩ with
    children := token :: statements }

def debug : Node := statement "Debug" "\"true\""
def batch : Node := statement "batch" "\"true\""
def framework : Node := statement "targetFramework" "\"4.8\""

/-- A statement without a value, of a name that no rule looks for. -/
def strict : Node where
  kind := .statement
  text := "strict"
  span := Span.nowhere
  children :=
    [{ kind := .attributeName, text := "strict", span := Span.nowhere }]

def compilation : Node := compilationWith [debug, framework, batch]

/-- The same in another order, with one statement left out and another one put
in. -/
def otherCompilation : Node := compilationWith [batch, strict, debug]

theorem statesFully_compilation : compilation.StatesFully := by
  intro child hchild hkind
  rw [compilation, compilationWith, List.mem_cons, List.mem_cons, List.mem_cons,
    List.mem_singleton] at hchild
  rcases hchild with rfl | rfl | rfl | rfl
  · contradiction
  · exact ⟨_, rfl⟩
  · exact ⟨_, rfl⟩
  · exact ⟨_, rfl⟩

theorem findsOne_compilation : rules.FindsOne compilation := by
  intro tag htag
  obtain rfl : tag = .compilation := (NodeKind.element.inj htag).symm
  decide +kernel

theorem not_bears_compilation {child : Node}
    (hbears : rules.bears .compilation child = false) (tag : Tag)
    (htag : (compilationWith [batch, debug]).kind = .element tag) :
    rules.bears tag child = false := by
  obtain rfl : tag = .compilation := (NodeKind.element.inj htag).symm
  exact hbears

theorem rearranges_compilation :
    rules.Rearranges compilation otherCompilation := by
  have hordered :
      rules.Rearranges compilation
        (compilationWith [batch, debug, framework]) :=
    .of_perm (.cons _ (.trans (.swap debug batch _)
      (.cons debug (.swap framework batch [])))) rfl
  have hleft : rules.Rearranges (compilationWith [batch, debug])
      (compilationWith [batch, debug, framework]) :=
    .of_insert [token, batch, debug] [] rfl rfl
      (not_bears_compilation (by decide +kernel))
  have hput : rules.Rearranges (compilationWith [batch, debug])
      otherCompilation :=
    .of_insert [token, batch] [debug] rfl rfl
      (not_bears_compilation (by decide +kernel))
  exact (hordered.trans hleft.symm).trans hput

theorem order_and_other_names_do_not_show :
    (∀ node ∈ [compilation], node.StatesFully) ∧
      (∀ node ∈ [compilation], rules.FindsOne node) ∧
      List.Forall₂ rules.Rearranges [compilation] [otherCompilation] ∧
      walkNodes rules "web.config" [otherCompilation] [] =
        walkNodes rules "web.config" [compilation] [] := by
  have hfully : ∀ node ∈ [compilation], node.StatesFully :=
    List.forall_mem_singleton.mpr statesFully_compilation
  have hone : ∀ node ∈ [compilation], rules.FindsOne node :=
    List.forall_mem_singleton.mpr findsOne_compilation
  have hnodes :
      List.Forall₂ rules.Rearranges [compilation] [otherCompilation] :=
    .cons rearranges_compilation .nil
  exact ⟨hfully, hone, hnodes,
    walk_ignores_attribute_order rules "web.config" hfully hone hnodes []⟩

example : (walkNodes rules "web.config" [compilation] []).2 = ⟨1, 2, 0⟩ := by
  decide +kernel

/-- Where two names begin with the one that is looked for, the order decides. -/
example :
    let batch := statement "batch" "\"false\""
    let timeout := statement "batchTimeout" "\"900\""
    (walkNodes rules "web.config" [compilationWith [batch, timeout]]
      []).2.violations = 1 ∧
      (walkNodes rules "web.config" [compilationWith [timeout, batch]]
        []).2.violations = 0 := by
  decide +kernel

end AttributeOrderWitness

end WebConfigAudit
