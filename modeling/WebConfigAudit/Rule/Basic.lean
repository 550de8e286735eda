import WebConfigAudit.Rule.Check
/-!
Rules about single elements.  A rule is a list of clauses, and an element that
offends one clause offends the rule.
-/

namespace WebConfigAudit

/-- A check bound to one attribute of one kind of element. -/
structure Clause where
  tag : Tag
  attributeName : String
  check : Check
deriving DecidableEq, Repr

/-- Attribute names are kept in lower case. -/
def Clause.of (tag : Tag) (attributeName : String) (check : Check) : Clause :=
  ⟨tag, Text.lowercase attributeName, check⟩

/-- Judge one node.  Only elements of the clause's own kind are looked at. -/
def Clause.evaluate (clause : Clause) (node : Node) :
    Except NodeError Outcome :=
  if node.kind = .element clause.tag then
    match node.findAttribute? clause.attributeName with
    | .ok found => .ok (clause.check.evaluate found)
    | .error e => .error e
  else .ok .notApplicable

structure ElementRule where
  id : String
  description : Option String := none
  clauses : List Clause
deriving DecidableEq, Repr

def ElementRule.tags (rule : ElementRule) : List Tag :=
  Tag.sorted (rule.clauses.map Clause.tag)

/-- Judge a node by the clauses in turn, up to the first violation or error.
`sofar` is the judgement of the clauses already passed. -/
def evaluateClauses (sofar : Outcome) :
    List Clause → Node → Except NodeError Outcome
  | [], _ => .ok sofar
  | clause :: rest, node =>
      match clause.evaluate node with
      | .error e => .error e
      | .ok .violation => .ok .violation
      | .ok .pass => evaluateClauses .pass rest node
      | .ok .notApplicable => evaluateClauses sofar rest node

/-- Judge one node, once however many clauses reject it. -/
def ElementRule.evaluate (rule : ElementRule) (node : Node) :
    Except NodeError Outcome :=
  evaluateClauses .notApplicable rule.clauses node

/-- What to say when the rule is violated: its description, if it has one. -/
def ElementRule.message (rule : ElementRule) (node : Node) : String :=
  rule.description.getD (node.text ++ " element violates " ++ rule.id)

end WebConfigAudit
