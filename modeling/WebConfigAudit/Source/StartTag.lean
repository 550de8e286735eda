import WebConfigAudit.Element.Span
/-!
The tokens of a start tag, just as the text writes them: the name, and the name
and the quoted value of each attribute.
-/

namespace WebConfigAudit

open Text (Cursor Position)

structure RawToken where
  text : List Char
  span : Span
deriving DecidableEq, Repr

/-- An attribute: its name, and its value with the quotes. -/
structure RawAttribute where
  name : RawToken
  value : RawToken
deriving DecidableEq, Repr

/-- A start tag: the name of its element and its attributes in order. -/
structure RawStartTag where
  name : RawToken
  attributes : List RawAttribute
deriving DecidableEq, Repr

inductive TokenFault where
  | noStartTag
  | unterminatedTag
  | noName
  | noEquals
  | noValue
  | unterminatedValue
deriving DecidableEq, Repr

def TokenFault.message : TokenFault → String
  | .noStartTag => "expected start tag"
  | .unterminatedTag => "unterminated start tag"
  | .noName => "expected attribute name"
  | .noEquals => "expected '=' after attribute name"
  | .noValue => "expected quoted attribute value"
  | .unterminatedValue => "unterminated attribute value"

structure TokenError where
  fault : TokenFault
  pos : Position
deriving DecidableEq, Repr

def isTagBlank (c : Char) : Bool :=
  c == ' ' || c == '\t' || c == '\n' || c == '\x0c' || c == '\r'

/-- What ends a name in a start tag. -/
def isTagDelimiter (c : Char) : Bool :=
  isTagBlank c || c == '/' || c == '>' || c == '='

/-- The run of characters up to the next delimiter. -/
def scanName (c : Cursor) : RawToken × Cursor :=
  let after := c.skip fun x => !isTagDelimiter x
  (⟨c.run fun x => !isTagDelimiter x, ⟨c.pos, after.pos⟩⟩, after)

def scanValue (c : Cursor) : Except TokenError (RawToken × Cursor) :=
  match c.rest with
  | [] => .error ⟨.noValue, c.pos⟩
  | mark :: _ =>
      if mark = '"' ∨ mark = '\'' then
        let inside := c.next.run (· ≠ mark)
        let closing := c.next.skip (· ≠ mark)
        match closing.rest with
        | [] => .error ⟨.unterminatedValue, c.pos⟩
        | _ :: _ =>
            .ok (⟨mark :: inside ++ [mark], ⟨c.pos, closing.next.pos⟩⟩,
              closing.next)
      else .error ⟨.noValue, c.pos⟩

def scanAttribute (c : Cursor) : Except TokenError (RawAttribute × Cursor) :=
  let (name, afterName) := scanName c
  let equals := afterName.skip isTagBlank
  if name.text.isEmpty then .error ⟨.noName, c.pos⟩
  else match equals.rest with
    | '=' :: _ => do
        let (value, after) ← scanValue (equals.next.skip isTagBlank)
        return (⟨name, value⟩, after)
    | _ => .error ⟨.noEquals, equals.pos⟩

/-- The attributes up to the end of the tag, which is not looked at any further;
`fuel` bounds their number. -/
def scanAttributes : Nat → Cursor → Except TokenError (List RawAttribute)
  | 0, c => .error ⟨.unterminatedTag, c.pos⟩
  | fuel + 1, c =>
      let c := c.skip isTagBlank
      match c.rest with
      | [] => .error ⟨.unterminatedTag, c.pos⟩
      | '>' :: _ => .ok []
      | '/' :: _ => .ok []
      | _ :: _ => do
          let (first, after) ← scanAttribute c
          let others ← scanAttributes fuel after
          return first :: others

def scanStartTag (c : Cursor) : Except TokenError RawStartTag :=
  match c.rest with
  | '<' :: _ => do
      let (name, after) := scanName c.next
      let attributes ← scanAttributes (after.rest.length + 1) after
      return ⟨name, attributes⟩
  | _ => .error ⟨.noStartTag, c.pos⟩

end WebConfigAudit
