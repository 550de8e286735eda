import WebConfigAudit.Yaml.Document
import WebConfigAudit.Yaml.Mismatch
/-!
Decoding the events of a document: readers for the sorts of value that records
are made of.

A reader takes the events of one value.  An alias is read as the value that it
names, and a mismatch is given the place of the innermost value in which it
arose.
-/

namespace WebConfigAudit.Yaml

/-- What a reader knows: the document, the path of the value that it reads, and
how many collections may still be opened inside one another. -/
structure Scope where
  events : Array Event
  fault : Option Fault
  path : Path := []
  depth : Nat := 128

/-- How far reading has come: the number of the next event, and how many aliases
were followed. -/
structure Progress where
  next : Nat := 0
  aliases : Nat := 0

abbrev Decoder := ReaderT Scope (StateT Progress (Except Failure))

namespace Decoder

def mismatch {α : Type} (m : Mismatch) : Decoder α :=
  throw (.mismatch m none)

/-- The next event, or the fault that stands behind the last one. -/
def peek : Decoder Event := do
  match (← read).events[(← get).next]?, (← read).fault with
  | some event, _ => return event
  | none, some fault => throw (.syntaxFault fault)
  | none, none => throw .ended

def next : Decoder Event := do
  let event ← peek
  modify fun progress => { progress with next := progress.next + 1 }
  return event

/-- Give a mismatch that has no place yet that of the value being read. -/
def located {α : Type} (mark : Mark) (body : Decoder α) : Decoder α :=
  fun scope progress =>
  match body scope progress with
  | .error (.mismatch m none) => .error (.mismatch m (some (mark, scope.path)))
  | result => result

/-- Read the value that an alias names, and go on behind the alias. -/
def throughAlias {α : Type} (target : Nat) (body : Decoder α) : Decoder α := do
  let scope ← read
  let progress ← get
  if progress.aliases + 1 > 100 * scope.events.size then throw .tooManyAliases
  else
    set ({ next := target, aliases := progress.aliases + 1 } : Progress)
    let value ← body
    modify fun after => { after with next := progress.next }
    return value

def inside {α : Type} (mark : Mark) (body : Decoder α) : Decoder α := do
  match (← read).depth with
  | 0 => throw (.tooDeep mark)
  | depth + 1 => withReader (fun scope => { scope with depth := depth }) body

def stepInto {α : Type} (step : Step) (body : Decoder α) : Decoder α :=
  withReader (fun scope => { scope with path := step :: scope.path }) body

/-- Read a value by its first event. -/
def byEvent {α : Type} (body : Event → Decoder α) : Decoder α := do
  let event ← next
  located event.mark do
    match event.kind with
    | .alias target =>
        throughAlias target do
          let event ← next
          located event.mark (body event)
    | _ => body event

/-- The tags of the sorts of plain value. -/
def boolTag : List Char := "tag:yaml.org,2002:bool".toList
@[inherit_doc boolTag] def integerTag : List Char :=
  "tag:yaml.org,2002:int".toList
@[inherit_doc boolTag] def floatTag : List Char :=
  "tag:yaml.org,2002:float".toList
@[inherit_doc boolTag] def nullTag : List Char :=
  "tag:yaml.org,2002:null".toList

def isLeftOut : EventKind → Bool
  | .void => true
  | .scalar s => s.text.isEmpty && s.style == .plain
  | _ => false

/-- What a scalar means, by its tag or else, if it is unquoted, by its text. -/
def meaning (s : Scalar) : Except Mismatch PlainValue :=
  let cs := s.text.toList
  let byText := if s.style = .plain then PlainValue.ofText cs else .text
  match s.tag with
  | none => .ok byText
  | some tag =>
      if tag = boolTag then
        match boolWord? cs with
        | some value => .ok (.bool value)
        | none => .error (.spelling s.text "a boolean")
      else if tag = integerTag then
        match integer? cs with
        | some value => .ok (.integer value)
        | none => .error (.spelling s.text "an integer")
      else if tag = floatTag then
        match floating? cs with
        | some spelling => .ok (.floating spelling)
        | none => .error (.spelling s.text "a float")
      else if tag = nullTag then
        if isNullWord cs then .ok .null else .error (.spelling s.text "null")
      else if tag.head? = some '!' then .ok byText
      else .ok .text

def unexpected {α : Type} (event : Event) (wanted : String) : Decoder α :=
  match event.kind with
  | .scalar s =>
      match meaning s with
      | .ok value => mismatch (.sort (.plain value s.text) wanted)
      | .error m => mismatch m
  | .sequenceStart _ => mismatch (.sort .sequence wanted)
  | .mappingStart _ => mismatch (.sort .mapping wanted)
  | _ => throw .ended

/-- Any scalar, as its text. -/
def textOr (wanted : String) : Decoder String :=
  byEvent fun event =>
    match event.kind with
    | .scalar s => return s.text
    | _ => unexpected event wanted

def text : Decoder String := textOr "a string"

def bool : Decoder Bool :=
  byEvent fun event =>
    match event.kind with
    | .scalar s =>
        let admitted := s.style == .plain ||
          (s.style == .literal && s.tag == some boolTag)
        match if admitted then boolWord? s.text.toList else none with
        | some value => return value
        | none => unexpected event "a boolean"
    | _ => unexpected event "a boolean"

/-- Read items up to the end of their sequence; `fuel` bounds their number. -/
def itemsFrom {α : Type} (item : Decoder α) : Nat → Nat → Decoder (List α)
  | 0, _ => return []
  | fuel + 1, index => do
      match (← peek).kind with
      | .sequenceEnd => do
          let _ ← next
          return []
      | _ => do
          let first ← stepInto (.item index) item
          let others ← itemsFrom item fuel (index + 1)
          return first :: others

/-- A number of steps that suffices to read any collection of the document. -/
def enough : Decoder Nat := do
  return (← read).events.size + 1

/-- A sequence of values; nothing counts as an empty one. -/
def list {α : Type} (item : Decoder α) : Decoder (List α) :=
  byEvent fun event =>
    match event.kind with
    | .sequenceStart _ => do inside event.mark (itemsFrom item (← enough) 0)
    | kind =>
        if isLeftOut kind then return [] else unexpected event "a sequence"

/-- Pass over the rest of a value of which `open_` collections have been
started; `fuel` bounds the number of events.  Aliases in it are not followed. -/
def skipRest : Nat → Nat → Decoder Unit
  | 0, _ => return
  | fuel + 1, depth => do
      let depth := match (← next).kind with
        | .sequenceStart _ => depth + 1
        | .mappingStart _ => depth + 1
        | .sequenceEnd => depth - 1
        | .mappingEnd => depth - 1
        | _ => depth
      if depth = 0 then return else skipRest fuel depth

def skipValue : Decoder Unit := do
  skipRest (← enough) 0

/-- A field of a record: its name, whether the record must have it, and how its
value goes into the record. -/
structure RecordField (σ : Type) where
  name : String
  required : Bool := false
  put : Decoder (σ → σ)

/-- The step into the entry whose key starts with this event. -/
def stepOfKey (event : Event) : Step :=
  match event.kind with
  | .scalar s => .entry s.text
  | _ => .unnamed

/-- Read entries up to the end of their mapping into a record, and tell which
fields came; `fuel` bounds the number of entries. -/
def entriesFrom {σ : Type} (fields : List (RecordField σ)) :
    Nat → List String → σ → Decoder (List String × σ)
  | 0, seen, record => return (seen, record)
  | fuel + 1, seen, record => do
      let event ← peek
      match event.kind with
      | .mappingEnd => return (seen, record)
      | _ =>
          let key ← textOr "field identifier"
          match fields.find? fun field => field.name == key with
          | none =>
              stepInto (stepOfKey event) skipValue
              entriesFrom fields fuel seen record
          | some field =>
              if seen.contains key then mismatch (.repeatedField key)
              else
                let put ← stepInto (stepOfKey event) field.put
                entriesFrom fields fuel (key :: seen) (put record)

/-- Refuse a record that lacks a required field. -/
def complete {σ : Type} (fields : List (RecordField σ)) (seen : List String)
    (record : σ) : Decoder σ :=
  match fields.find? fun field =>
    field.required && !seen.contains field.name with
  | some field => mismatch (.missingField field.name)
  | none => return record

/-- A record, filled field by field from a blank one.  Entries with other names
are passed over; nothing counts as a mapping without entries. -/
def record {σ : Type} (title : String) (fields : List (RecordField σ))
    (blank : σ) : Decoder σ :=
  byEvent fun event =>
    match event.kind with
    | .mappingStart _ =>
        inside event.mark do
          let (seen, filled) ← entriesFrom fields (← enough) [] blank
          let filled ← complete fields seen filled
          let _ ← next
          return filled
    | kind =>
        if isLeftOut kind then complete fields [] blank
        else unexpected event ("struct " ++ title)

def saysNone : EventKind → Except Mismatch Bool
  | .void => .ok true
  | .scalar s =>
      if s.style ≠ .plain then .ok false
      else match s.tag with
        | none => .ok (s.text.isEmpty || isNullWord s.text.toList)
        | some tag =>
            if tag ≠ nullTag then .ok false
            else if isNullWord s.text.toList then .ok true
            else .error (.spelling s.text "null")
  | _ => .ok false

/-- A value that may be left out, no alias coming next. -/
def optionalHere {α : Type} (item : Decoder α) : Decoder (Option α) := do
  match saysNone (← peek).kind with
  | .error m => mismatch m
  | .ok true => do
      let _ ← next
      return none
  | .ok false => return some (← item)

def optional {α : Type} (item : Decoder α) : Decoder (Option α) := do
  match (← peek).kind with
  | .alias target => do
      let _ ← next
      throughAlias target (optionalHere item)
  | _ => optionalHere item

/-- The octets that stand for the characters of a tag, as a text. -/
def textOfOctets? (octets : List Char) : Option String :=
  String.fromUTF8? (ByteArray.mk (octets.map fun c => c.toNat.toUInt8).toArray)

/-- The name in a tag of the document's own, which is one mark and a name. -/
def localTag? (tag : Option (List Char)) : Option String :=
  match tag with
  | some ('!' :: c :: name) => textOfOctets? (c :: name)
  | _ => none

def tagOf : EventKind → Option (List Char)
  | .scalar s => s.tag
  | .sequenceStart tag => tag
  | .mappingStart tag => tag
  | _ => none

def nothing : Decoder Unit :=
  byEvent fun event =>
    match event.kind with
    | .scalar s =>
        if s.style = .plain ∧ (s.text.isEmpty || isNullWord s.text.toList) =
          true then return
        else mismatch (.spelling s.text "null")
    | _ => unexpected event "unit"

/-- The one of some values that has a name. -/
def named {α : Type} (name : α → String) (all : List α) (text : String) :
    Decoder α :=
  match all.find? fun a => name a == text with
  | some a => return a
  | none => mismatch (.unknownName text (all.map name))

/-- One of some values by its name: a scalar, or a tag on nothing. -/
def choiceHere {α : Type} (name : α → String) (all : List α) : Decoder α := do
  let event ← peek
  match localTag? (tagOf event.kind) with
  | some text => do
      let a ← named name all text
      nothing
      return a
  | none =>
      located event.mark do
        match event.kind with
        | .scalar s => do
            let _ ← next
            named name all s.text
        | _ => unexpected event "a YAML tag starting with '!'"

/-- One of some values by its name. -/
def choice {α : Type} (name : α → String) (all : List α) : Decoder α := do
  let event ← peek
  match event.kind with
  | .alias target =>
      located event.mark do
        let _ ← next
        throughAlias target (choiceHere name all)
  | _ => choiceHere name all

/-- What a value of any sort comes to: an integer, a text, or something else. -/
inductive Content where
  | integer (value : Int)
  | text (text : String)
  | other
deriving DecidableEq, Repr

/-- Read entries of any sort up to the end of their mapping. -/
def contentEntries (item : Decoder Content) : Nat → Decoder Unit
  | 0 => return
  | fuel + 1 => do
      let event ← peek
      match event.kind with
      | .mappingEnd => do
          let _ ← next
      | _ => do
          let _ ← item
          let _ ← stepInto (stepOfKey event) item
          contentEntries item fuel

/-- A value of any sort, given a reader of the values inside it. -/
def contentOver (item : Decoder Content) : Decoder Content :=
  byEvent fun event =>
    if (localTag? (tagOf event.kind)).isSome then mismatch .taggedValue
    else match event.kind with
      | .scalar s =>
          match meaning s with
          | .error m => mismatch m
          | .ok .text => return .text s.text
          | .ok (.integer n) =>
              if isNarrow n then return .integer n
              else mismatch (.sort (.plain (.integer n) s.text) "any value")
          | .ok _ => return .other
      | .sequenceStart _ => do
          let _ ← inside event.mark (itemsFrom item (← enough) 0)
          return .other
      | .mappingStart _ => do
          inside event.mark (contentEntries item (← enough))
          return .other
      | _ => return .other

/-- A value of any sort with at most `depth` collections inside one another. -/
def contentWithin : Nat → Decoder Content
  | 0 => contentOver (return .other)
  | depth + 1 => contentOver (contentWithin depth)

def content : Decoder Content := do
  contentWithin (← read).depth

end Decoder

def decode {α : Type} (reader : Decoder α) (text : String) :
    Except Failure α := do
  let document := Document.ofText text
  let (value, _) ← reader ⟨document.events.toArray, document.fault, [], 128⟩ {}
  match document.fault with
  | some fault => throw (.syntaxFault fault)
  | none => if document.followed then throw .severalDocuments else return value

end WebConfigAudit.Yaml
