import WebConfigAudit.Element.Attribute
import WebConfigAudit.Proofs.Lowercase
/-!
Looking up an attribute, said without the loop: the first statement that bears
on the name decides, and the name may be given in any case.
-/

namespace WebConfigAudit

/-- Whether a child ends the look-up of a name that is already in lower case: a
statement that has the name, or one that has no name token at all. -/
def Node.settles (wanted : List Char) (child : Node) : Bool :=
  child.kind == .statement &&
    match child.children with
    | [] => true
    | name :: _ => nameBegins wanted name

/-- The two tokens of a statement, or the one that is missing. -/
def Node.tokens (statement : Node) : Except NodeError AttributeMatch :=
  match statement.children with
  | [] => .error (.missingName statement.span)
  | [name] => .error (.missingValue name.text statement.span)
  | name :: value :: _ => .ok ⟨statement, name, value⟩

/-- The attribute under a name that is already in lower case, as the first
statement that settles the look-up has it. -/
def Node.settledAttribute? (node : Node) (wanted : List Char) :
    Except NodeError (Option AttributeMatch) :=
  match node.children.find? (Node.settles wanted) with
  | none => .ok none
  | some statement => statement.tokens.map some

theorem findStatement_eq_find? (wanted : List Char) (children : List Node) :
    findStatement wanted children =
      match children.find? (Node.settles wanted) with
      | none => .ok none
      | some statement => statement.tokens.map some := by
  induction children with
  | nil => rfl
  | cons child rest ih =>
      rw [findStatement, List.find?_cons]
      by_cases hkind : child.kind = .statement
      · rw [if_pos hkind]
        cases htokens : child.children with
        | nil => simp [Node.settles, Node.tokens, hkind, htokens, Except.map]
        | cons name tokens =>
            by_cases hname : nameBegins wanted name = true
            · cases tokens with
              | nil =>
                  simp [Node.settles, Node.tokens, hkind, htokens, hname,
                    Except.map]
              | cons value others =>
                  simp [Node.settles, Node.tokens, hkind, htokens, hname,
                    Except.map]
            · simp [Node.settles, hkind, htokens, hname, ih]
      · have hpassed : child.settles wanted = false := by
          rw [Node.settles, beq_eq_false_iff_ne.mpr hkind, Bool.false_and]
        rw [if_neg hkind, ih, hpassed]

/-- The name is put into lower case once more when it is looked up. -/
theorem Node.findAttribute?_eq (node : Node) (name : String) :
    node.findAttribute? name =
      node.settledAttribute? (Text.lowerChars name.toList) :=
  findStatement_eq_find? _ _

theorem Node.findAttribute?_lowercase (node : Node) (name : String) :
    node.findAttribute? (Text.lowercase name) = node.findAttribute? name := by
  simp [Node.findAttribute?, Text.lowercase, Text.lowerChars_lowerChars]

end WebConfigAudit
