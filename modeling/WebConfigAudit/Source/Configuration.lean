import WebConfigAudit.Element.Node
import WebConfigAudit.Source.StartTag
import WebConfigAudit.Xml.Element
/-!
From the text of a configuration file to the elements that rules look at.
-/

namespace WebConfigAudit

open Text (Cursor)

/-- Why a text is no configuration: it is no document, or a start tag in it
cannot be taken apart. -/
inductive SourceError where
  | malformed
  | token (error : TokenError)
deriving DecidableEq, Repr

def TokenError.message (e : TokenError) : String :=
  "unexpected token at " ++ Text.decimal e.pos.line ++ ":" ++
    Text.decimal e.pos.column ++ ": " ++ e.fault.message

/-- The statement that an attribute makes. -/
def RawAttribute.toNode (a : RawAttribute) : Node :=
  Node.statement (String.ofList a.name.text) (String.ofList a.value.text)
    a.name.span a.value.span

/-- The node of an element: the token of its name, then its attributes. -/
def nodeOfTag (tag : Tag) (span : Span) (raw : RawStartTag) : Node :=
  { kind := .element tag
    text := String.ofList raw.name.text
    span := span
    children :=
      { kind := .tagName, text := String.ofList raw.name.text,
        span := raw.name.span } ::
        raw.attributes.map RawAttribute.toNode }

/-- The node of an element, if it is of a wanted kind. -/
def nodeOfElement (wanted : List Tag) (element : Xml.Element) :
    Except SourceError (Option Node) :=
  match Tag.ofElementName? (String.ofList element.name) with
  | none => .ok none
  | some tag =>
      if tag ∈ wanted then
        match scanStartTag element.start with
        | .error e => .error (.token e)
        | .ok raw =>
            .ok (some (nodeOfTag tag ⟨element.start.pos, element.stop⟩ raw))
      else .ok none

/-- The nodes of the elements of wanted kinds, in the order of the document. -/
def readConfiguration (wanted : List Tag) (source : String) :
    Except SourceError (List Node) :=
  match Xml.elements? (Cursor.ofText source) with
  | none => .error .malformed
  | some elements => do
      let nodes ← elements.mapM (nodeOfElement wanted)
      return nodes.filterMap id

end WebConfigAudit
