import WebConfigAudit.Element.Node
import WebConfigAudit.Text.CharClass
import WebConfigAudit.Text.Lowercase
/-!
Looking up an attribute of an element.
-/

namespace WebConfigAudit

/-- Either of the characters that may enclose a value. -/
def isQuoteMark (c : Char) : Bool :=
  c == '"' || c == '\''

def dropQuoteMark : List Char → List Char
  | [] => []
  | c :: rest => if isQuoteMark c then rest else c :: rest

/-- Drop a quote mark at the front and then one at the end, of any kind. -/
def stripQuoteMarks (cs : List Char) : List Char :=
  (dropQuoteMark (dropQuoteMark cs).reverse).reverse

/-- The text without one quote mark at either end. -/
def stripQuotes (raw : String) : String :=
  String.ofList (stripQuoteMarks raw.toList)

/-- An attribute statement with its two tokens. -/
structure AttributeMatch where
  statement : Node
  name : Node
  value : Node
deriving Repr

/-- The value without its quotes and without blanks at its ends. -/
def AttributeMatch.valueText (found : AttributeMatch) : String :=
  Text.trim (stripQuotes found.value.text)

/-- The value text in lower case, which is what comparisons of texts look at. -/
def AttributeMatch.normalizedValue (found : AttributeMatch) : String :=
  Text.lowercase found.valueText

/-- Whether a name token begins with the wanted name, already in lower case.  A
longer token is accepted, so that a reader may annotate names. -/
def nameBegins (wanted : List Char) (token : Node) : Bool :=
  wanted.isPrefixOf (Text.lowerChars token.text.toList)

/-- The first statement whose name begins with the wanted one.  A statement
without a name token, or a matching one without a value token, is an error if it
is reached. -/
def findStatement (wanted : List Char) :
    List Node → Except NodeError (Option AttributeMatch)
  | [] => .ok none
  | statement :: rest =>
      if statement.kind = .statement then
        match statement.children with
        | [] => .error (.missingName statement.span)
        | name :: tokens =>
            if nameBegins wanted name then
              match tokens with
              | [] => .error (.missingValue name.text statement.span)
              | value :: _ => .ok (some ⟨statement, name, value⟩)
            else findStatement wanted rest
      else findStatement wanted rest

/-- Look up an attribute among the children of a node, in any case. -/
def Node.findAttribute? (node : Node) (name : String) :
    Except NodeError (Option AttributeMatch) :=
  findStatement (Text.lowerChars name.toList) node.children

end WebConfigAudit
