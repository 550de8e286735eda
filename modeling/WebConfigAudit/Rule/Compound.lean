import WebConfigAudit.Rule.Check
/-!
Rules about two elements of one file.  An anchor switches on something
dangerous, and a countermand anywhere in the file makes that acceptable; the
order of the two does not matter.
-/

namespace WebConfigAudit

/-- An attribute that enables something when it has an affirmative value. -/
structure Anchor where
  tag : Tag
  attributeName : String
  affirmative : List String
deriving DecidableEq, Repr

/-- Affirmative values are kept normalized. -/
def Anchor.of (tag : Tag) (attributeName : String) (affirmative : List String) :
    Anchor :=
  ⟨tag, attributeName, affirmative.map normalize⟩

/-- An attribute that makes the anchor acceptable when it has the value. -/
structure Countermand where
  tag : Tag
  attributeName : String
  value : String
deriving DecidableEq, Repr

/-- The value is kept normalized. -/
def Countermand.of (tag : Tag) (attributeName : String) (value : String) :
    Countermand :=
  ⟨tag, attributeName, normalize value⟩

structure CompoundRule where
  id : String
  description : Option String := none
  anchor : Anchor
  countermand : Countermand
deriving DecidableEq, Repr

def CompoundRule.tags (rule : CompoundRule) : List Tag :=
  Tag.sorted [rule.anchor.tag, rule.countermand.tag]

/-- What to say when the rule is violated: its description, if it has one. -/
def CompoundRule.message (rule : CompoundRule) : String :=
  rule.description.getD
    (rule.anchor.attributeName ++ " enabled without a matching " ++
      rule.countermand.tag.typeName ++ " grant")

/-- What a walk has seen so far that bears on one compound rule. -/
structure Evidence where
  anchor : Option Node := none
  countermanded : Bool := false
deriving Repr

/-- Note the anchor, if the element is one; the last anchor counts. -/
def Evidence.noteAnchor (rule : CompoundRule) (seen : Evidence) (node : Node) :
    Except NodeError Evidence :=
  if node.kind = .element rule.anchor.tag then
    match node.findAttribute? rule.anchor.attributeName with
    | .error e => .error e
    | .ok none => .ok seen
    | .ok (some found) =>
        if rule.anchor.affirmative.contains found.normalizedValue then
          .ok { seen with anchor := some node }
        else .ok seen
  else .ok seen

def Evidence.noteCountermand (rule : CompoundRule) (seen : Evidence)
    (node : Node) : Except NodeError Evidence :=
  if node.kind = .element rule.countermand.tag then
    match node.findAttribute? rule.countermand.attributeName with
    | .error e => .error e
    | .ok none => .ok seen
    | .ok (some found) =>
        if found.normalizedValue = rule.countermand.value then
          .ok { seen with countermanded := true }
        else .ok seen
  else .ok seen

/-- Note what one node contributes: the evidence afterwards, and the error that
cut the look at the node short, if there was one.  What was noted before the
error stays noted. -/
def Evidence.observe (rule : CompoundRule) (seen : Evidence) (node : Node) :
    Evidence × Option NodeError :=
  match seen.noteAnchor rule node with
  | .error e => (seen, some e)
  | .ok anchored =>
      match anchored.noteCountermand rule node with
      | .error e => (anchored, some e)
      | .ok both => (both, none)

/-- The element to report once every node was seen. -/
def Evidence.verdict (seen : Evidence) : Option Node :=
  if seen.countermanded then none else seen.anchor

end WebConfigAudit
