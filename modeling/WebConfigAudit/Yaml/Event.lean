import WebConfigAudit.Yaml.Token
/-!
The events of a YAML document: its values in the order of the text, a collection
by its start and its end.
-/

namespace WebConfigAudit.Yaml

/-- A value that is no collection: its text, how it is written and its tag.  The
octets of an escaped character of a tag are kept as characters of their own. -/
structure Scalar where
  text : String
  style : ScalarStyle := .plain
  tag : Option (List Char) := none
deriving DecidableEq, Repr

/-- What an event is.  An alias names the event where the value it stands for
starts; `void` stands for a text without any value. -/
inductive EventKind where
  | alias (target : Nat)
  | scalar (scalar : Scalar)
  | sequenceStart (tag : Option (List Char))
  | sequenceEnd
  | mappingStart (tag : Option (List Char))
  | mappingEnd
  | void
deriving DecidableEq, Repr

structure Event where
  kind : EventKind
  mark : Mark
deriving DecidableEq, Repr

/-- The first document of a text: its events as far as they could be read, the
fault that cut them short, and whether anything follows the document. -/
structure Document where
  events : List Event
  fault : Option Fault := none
  followed : Bool := false
deriving Repr

end WebConfigAudit.Yaml
