import WebConfigAudit.Element.Span
import WebConfigAudit.Element.Tag
import WebConfigAudit.Text.Quoted
/-!
The nodes of a configuration, as the rules see them: elements, whose children
are the token of the element's own name and its attribute statements, each made
of a name token and a value token.
-/

namespace WebConfigAudit

inductive NodeKind where
  | element (tag : Tag)
  | tagName
  | statement
  | attributeName
  | attributeValue
deriving DecidableEq, Repr

/-- A node with its source text, its place and its children.  The text of an
element is its name; the text of a value token keeps the quotes. -/
structure Node where
  kind : NodeKind
  text : String
  span : Span
  children : List Node := []
deriving BEq, Repr

/-- An element without children, named as configuration files name it. -/
def Node.element (tag : Tag) (span : Span) : Node :=
  { kind := .element tag, text := tag.elementName, span := span }

/-- The attribute statement made of a name token and a quoted value token. -/
def Node.statement (name value : String) (nameSpan valueSpan : Span) : Node :=
  { kind := .statement
    text := name ++ "=" ++ value
    span := ⟨nameSpan.start, valueSpan.stop⟩
    children :=
      [{ kind := .attributeName, text := name, span := nameSpan },
       { kind := .attributeValue, text := value, span := valueSpan }] }

def Node.tag? (node : Node) : Option Tag :=
  match node.kind with
  | .element tag => some tag
  | _ => none

/-- The last child that is a name token of the element itself. -/
def Node.tagName? (node : Node) : Option Node :=
  node.children.reverse.find? fun child => child.kind == .tagName

/-- The place to report for an element.  It begins at the token of the element's
name, if there is one, and ends where the element ends. -/
def Node.location (node : Node) : Span :=
  match node.tagName? with
  | some name => ⟨name.span.start, node.span.stop⟩
  | none => node.span

/-- An attribute statement that lacks one of its tokens. -/
inductive NodeError where
  | missingName (span : Span)
  | missingValue (name : String) (span : Span)
deriving DecidableEq, Repr

def NodeError.message : NodeError → String
  | .missingName span =>
      "attribute statement at " ++ span.text ++ " has no name token"
  | .missingValue name span =>
      "attribute " ++ Text.quote name ++ " at " ++ span.text ++
        " has no value token"

end WebConfigAudit
