import WebConfigAudit.Proofs.AttributeLookup
import WebConfigAudit.Rule.Basic
/-!
The statement that decides a look-up: the first one that bears on the name,
whether or not it lacks a token.  What comes after it, what lies below its
tokens and what is no statement is never looked at, nor is the case of the name.
-/

namespace WebConfigAudit

open Text (lowerChars)

/-- The child is a statement that has the name, up to what is added behind it,
or that has no name token at all. -/
def Node.BearsOn (name : String) (child : Node) : Prop :=
  child.kind = .statement ∧
    ∀ token ∈ child.children.head?, lowerChars name.toList <+:
      lowerChars token.text.toList

/-- The node with nothing below it. -/
def Node.bare (node : Node) : Node :=
  { node with children := [] }

/-- The child down to its tokens: of a statement the first two, of any other
child none. -/
def Node.surface (child : Node) : Node :=
  { child with
    children := if child.kind =
      .statement then (child.children.take 2).map Node.bare else [] }

/-- An attribute down to its tokens. -/
def AttributeMatch.surface (found : AttributeMatch) : AttributeMatch :=
  ⟨found.statement.surface, found.name.bare, found.value.bare⟩

section Children

variable {wanted : List Char} {name : String} {child : Node}

theorem Node.settles_eq_true_iff :
    child.settles (lowerChars name.toList) = true ↔ child.BearsOn name := by
  rw [Node.settles, Bool.and_eq_true, beq_iff_eq, Node.BearsOn]
  apply and_congr_right
  intro _
  cases child.children with
  | nil => simp
  | cons token others => simp [nameBegins]

instance (name : String) (child : Node) : Decidable (child.BearsOn name) :=
  decidable_of_iff _ Node.settles_eq_true_iff

theorem Node.kind_of_settles (hsettles : child.settles wanted = true) :
    child.kind = .statement := by
  rw [Node.settles, Bool.and_eq_true, beq_iff_eq] at hsettles
  exact hsettles.1

@[simp] theorem Node.settles_surface :
    child.surface.settles wanted = child.settles wanted := by
  by_cases hkind : child.kind = .statement
  · cases htokens : child.children with
    | nil => simp [Node.settles, Node.surface, hkind, htokens]
    | cons token others =>
        simp [Node.settles, Node.surface, hkind, htokens, nameBegins, Node.bare]
  · simp [Node.settles, Node.surface, hkind]

theorem Node.tokens_surface (hkind : child.kind = .statement) :
    child.surface.tokens = child.tokens.map AttributeMatch.surface := by
  match htokens : child.children with
  | [] => simp [Node.tokens, Node.surface, hkind, htokens, Except.map]
  | [token] =>
      simp [Node.tokens, Node.surface, hkind, htokens, Except.map, Node.bare]
  | token :: value :: others =>
      simp [Node.tokens, Node.surface, AttributeMatch.surface, hkind, htokens,
        Except.map, Node.bare]

end Children

section Lookup

variable {node other child : Node} {name : String} {before after : List Node}

theorem Node.findAttribute?_eq_none_iff :
    node.findAttribute? name = .ok none ↔
      ∀ child ∈ node.children, ¬ child.BearsOn name := by
  rw [Node.findAttribute?_eq, Node.settledAttribute?]
  cases hfind : node.children.find? (Node.settles (lowerChars name.toList)) with
  | none =>
      rw [List.find?_eq_none] at hfind
      apply iff_of_true rfl
      intro child hchild hbears
      exact hfind child hchild (Node.settles_eq_true_iff.mpr hbears)
  | some child =>
      have hbears := Node.settles_eq_true_iff.mp (List.find?_some hfind)
      apply iff_of_false
      · dsimp only
        cases child.tokens with
        | error e => simp [Except.map]
        | ok found => simp [Except.map]
      · intro hnone
        exact hnone child (List.mem_of_find?_eq_some hfind) hbears

/-- The first child that bears on the name gives the answer. -/
theorem Node.findAttribute?_of_first
    (hsplit : node.children = before ++ child :: after)
    (hbears : child.BearsOn name)
    (hbefore : ∀ passed ∈ before, ¬ passed.BearsOn name) :
    node.findAttribute? name = child.tokens.map some := by
  have hfind : node.children.find? (Node.settles (lowerChars name.toList)) =
      some child := by
    rw [List.find?_eq_some_iff_append]
    refine ⟨Node.settles_eq_true_iff.mpr hbears, before, after, hsplit, ?_⟩
    intro passed hpassed
    rw [Bool.not_eq_true', Bool.eq_false_iff, ne_eq, Node.settles_eq_true_iff]
    exact hbefore passed hpassed
  rw [Node.findAttribute?_eq, Node.settledAttribute?, hfind]

theorem Node.findAttribute?_of_filter
    (hsame : other.children.filter (fun child => child.kind == .statement) =
      node.children.filter fun child => child.kind == .statement) :
    other.findAttribute? name = node.findAttribute? name := by
  have hfilter (children : List Node) :
      children.find? (Node.settles (lowerChars name.toList)) =
        (children.filter fun child => child.kind == .statement).find?
          (Node.settles (lowerChars name.toList)) := by
    rw [List.find?_filter]
    congr 1
    funext child
    rw [Bool.eq_iff_iff, decide_eq_true_eq, beq_iff_eq]
    exact ⟨fun hsettles => ⟨Node.kind_of_settles hsettles, hsettles⟩, And.right⟩
  rw [Node.findAttribute?_eq, Node.findAttribute?_eq, Node.settledAttribute?,
    Node.settledAttribute?, hfilter, hsame, ← hfilter]

/-- What is found on the surfaces of the children is the surface of what is
found on them. -/
theorem Node.findAttribute?_surface
    (hsurface : other.children = node.children.map Node.surface) :
    other.findAttribute? name =
      (node.findAttribute? name).map (Option.map AttributeMatch.surface) := by
  have hsettles : Node.settles (lowerChars name.toList) ∘ Node.surface =
      Node.settles (lowerChars name.toList) := by
    funext child
    exact Node.settles_surface
  rw [Node.findAttribute?_eq, Node.findAttribute?_eq, Node.settledAttribute?,
    Node.settledAttribute?, hsurface, List.find?_map, hsettles]
  cases hfind : node.children.find? (Node.settles (lowerChars name.toList)) with
  | none => rfl
  | some child =>
      have hkind := Node.kind_of_settles (List.find?_some hfind)
      dsimp only [Option.map_some]
      rw [Node.tokens_surface hkind]
      cases child.tokens with
      | error e => rfl
      | ok found => rfl

end Lookup

/-- A look-up is decided by the first child that bears on the name.  If there is
none, nothing is found; if the child lacks a token, that is the error; else its
first two tokens are found.  Children after it do not matter, nor do children of
other kinds, nor does what lies below the tokens, nor whether the name is in
lower case already, as a clause has it. -/
theorem first_bearing_statement_decides (node : Node) (name : String) :
    (node.findAttribute? name = .ok none ↔
      ∀ child ∈ node.children, ¬ child.BearsOn name) ∧
    (∀ before child after, node.children = before ++ child :: after →
      child.BearsOn name →
      (∀ passed ∈ before, ¬ passed.BearsOn name) →
        (child.children = [] →
          node.findAttribute? name = .error (.missingName child.span)) ∧
        (∀ token, child.children = [token] →
          node.findAttribute? name =
            .error (.missingValue token.text child.span)) ∧
        (∀ token value others, child.children = token :: value :: others →
          node.findAttribute? name = .ok (some ⟨child, token, value⟩)) ∧
        ∀ (other : Node) (rest : List Node), other.children =
          before ++ child :: rest →
          other.findAttribute? name = node.findAttribute? name) ∧
    (∀ other : Node,
        other.children.filter (fun child => child.kind == .statement) =
          node.children.filter (fun child => child.kind == .statement) →
      other.findAttribute? name = node.findAttribute? name) ∧
    (∀ other : Node, other.children.map Node.surface =
        node.children.map Node.surface →
      (other.findAttribute? name).map (Option.map AttributeMatch.surface) =
        (node.findAttribute? name).map (Option.map AttributeMatch.surface)) ∧
    node.findAttribute? (Text.lowercase name) = node.findAttribute? name ∧
    ∀ tag check, node.kind = .element tag →
      (Clause.of tag name check).evaluate node =
        (node.findAttribute? name).map check.evaluate := by
  have hlower := node.findAttribute?_lowercase name
  refine ⟨Node.findAttribute?_eq_none_iff, ?_, ?_, ?_, hlower, ?_⟩
  · intro before child after hsplit hbears hbefore
    have hfirst := Node.findAttribute?_of_first hsplit hbears hbefore
    refine ⟨?_, ?_, ?_, ?_⟩
    · intro hchildren
      rw [hfirst, Node.tokens, hchildren]
      rfl
    · intro token hchildren
      rw [hfirst, Node.tokens, hchildren]
      rfl
    · intro token value others hchildren
      rw [hfirst, Node.tokens, hchildren]
      rfl
    · intro other rest hother
      rw [hfirst, Node.findAttribute?_of_first hother hbears hbefore]
  · intro other hsame
    exact Node.findAttribute?_of_filter hsame
  · intro other hsame
    have hmapped :
        ({ node with children := node.children.map Node.surface } :
          Node).children =
          other.children.map Node.surface := hsame.symm
    rw [← Node.findAttribute?_surface hmapped, Node.findAttribute?_surface rfl]
  · intro tag check hkind
    rw [Clause.evaluate, Clause.of, if_pos hkind, hlower]
    cases node.findAttribute? name with
    | error e => rfl
    | ok found => rfl

namespace DecidingStatementWitness

def token (kind : NodeKind) (text : String) : Node :=
  { kind, text, span := Span.nowhere }

/-- A statement with any number of tokens. -/
def statement (tokens : List Node) : Node :=
  { token .statement "" with children := tokens }

def mode : Node :=
  statement [token .attributeName "mode", token .attributeValue "'on'"]
def roles : Node :=
  statement [token .attributeName "Roles:list", token .attributeValue "'admin'"]

/-- The same with nodes below the value and a third token. -/
def deepRoles : Node :=
  statement [token .attributeName "Roles:list",
    { token .attributeValue "'admin'" with children := [mode] },
    token .attributeValue "'all'"]

def valueless : Node := statement [token .attributeName "roles"]
def nameless : Node := statement []

/-- An element below the element, with a statement that would be found in its
place. -/
def nested : Node :=
  { Node.element .forms Span.nowhere with children := [roles] }

def allow (children : List Node) : Node :=
  { Node.element .allow Span.nowhere with children }

theorem roles_are_decided :
    roles.BearsOn "ROLES" ∧
      (∀ passed ∈ [nested, mode], ¬ passed.BearsOn "ROLES") ∧
    (allow [nested, mode, roles, valueless]).findAttribute? "ROLES" =
      .ok (some ⟨roles, token .attributeName "Roles:list",
        token .attributeValue "'admin'"⟩) ∧
    (allow [nested, mode, roles, nameless]).findAttribute? "ROLES" =
      (allow [nested, mode, roles, valueless]).findAttribute? "ROLES" ∧
    (allow [mode, roles, valueless]).findAttribute? "ROLES" =
      (allow [nested, mode, roles, valueless]).findAttribute? "ROLES" ∧
    ((allow [nested, mode, deepRoles, valueless]).findAttribute? "ROLES").map
        (Option.map AttributeMatch.surface) =
      ((allow [nested, mode, roles, valueless]).findAttribute? "ROLES").map
        (Option.map AttributeMatch.surface) ∧
    (Clause.of .allow "ROLES" .presence).evaluate
        (allow [nested, mode, roles, valueless]) =
      .ok .pass ∧
    (allow [nested, mode, valueless, roles]).findAttribute? "ROLES" =
      .error (.missingValue "roles" Span.nowhere) ∧
    (allow [nested, mode, nameless, roles]).findAttribute? "ROLES" =
      .error (.missingName Span.nowhere) ∧
    (allow [nested, mode]).findAttribute? "ROLES" = .ok none := by
  have hroles : roles.BearsOn "ROLES" := by decide +kernel
  have hvalueless : valueless.BearsOn "ROLES" := by decide +kernel
  have hnameless : nameless.BearsOn "ROLES" := by decide +kernel
  have hbefore : ∀ passed ∈ [nested, mode], ¬ passed.BearsOn "ROLES" := by
    decide +kernel
  obtain ⟨_, hfirst, hkinds, hsurface, _, hclause⟩ :=
    first_bearing_statement_decides
      (allow [nested, mode, roles, valueless]) "ROLES"
  obtain ⟨_, _, hfound, hafter⟩ :=
    hfirst [nested, mode] roles [valueless] rfl hroles hbefore
  obtain ⟨_, hnoValue, _⟩ :=
    first_bearing_statement_decides
      (allow [nested, mode, valueless, roles]) "ROLES"
  obtain ⟨_, hlacksValue, _, _⟩ :=
    hnoValue [nested, mode] valueless [roles] rfl hvalueless hbefore
  obtain ⟨_, hnoName, _⟩ :=
    first_bearing_statement_decides
      (allow [nested, mode, nameless, roles]) "ROLES"
  obtain ⟨hlacksName, _, _, _⟩ :=
    hnoName [nested, mode] nameless [roles] rfl hnameless hbefore
  obtain ⟨hnone, _⟩ :=
    first_bearing_statement_decides (allow [nested, mode]) "ROLES"
  have hpass := hclause .allow .presence rfl
  rw [hfound _ _ [] rfl] at hpass
  exact ⟨hroles, hbefore, hfound _ _ [] rfl, hafter _ [nameless] rfl,
    hkinds _ rfl, hsurface _ rfl, hpass, hlacksValue _ rfl, hlacksName rfl,
    hnone.mpr hbefore⟩

end DecidingStatementWitness

end WebConfigAudit
