import WebConfigAudit.Yaml.Event
import WebConfigAudit.Yaml.Lexer
/-!
From the tokens of a YAML text to the events of its first document.

What is still open is kept on a stack, one entry for each thing that the text
must go on with.  A step takes the topmost entry and the next token, so a
document is read by repeating one step until nothing is open.
-/

namespace WebConfigAudit.Yaml

/-- What the text must go on with.  The marks are those of the collection that
is being read.  A pair is a mapping with one entry, written in a sequence
without brackets of its own. -/
inductive Expected where
  | node (block indentless : Bool)
  | blockItem (start : Mark)
  | indentlessItem
  | blockKey (start : Mark)
  | blockValue
  | flowItem (first : Bool) (start : Mark)
  | pairKey
  | pairValue
  | pairEnd
  | flowKey (first : Bool) (start : Mark)
  | flowValue
  | emptyFlowValue
deriving Repr

/-- A document under way: the tokens to come and the fault after them; the
events so far, latest first; the abbreviations of tags; the number of each
anchor, and for each number the event it names, latest first. -/
structure Reading where
  tokens : List Token
  fault : Fault
  pending : List Expected := []
  events : List Event := []
  handles : List (List Char × List Char) := []
  anchors : List (List Char × Nat) := []
  targets : List (Nat × Nat) := []

/-- The tag and the anchor in front of a node, with the place of the first of
them and the place of the tag. -/
structure NodeProperties where
  anchor : Option (List Char) := none
  tag : Option (List Char × List Char) := none
  start : Mark
  tagStart : Mark
  stop : Mark

namespace Reading

def peek (r : Reading) : Except Fault Token :=
  match r.tokens with
  | token :: _ => .ok token
  | [] => .error r.fault

def skip (r : Reading) : Reading :=
  { r with tokens := r.tokens.tail }

def expect (expected : Expected) (r : Reading) : Reading :=
  { r with pending := expected :: r.pending }

def emit (kind : EventKind) (mark : Mark) (r : Reading) : Reading :=
  { r with events := ⟨kind, mark⟩ :: r.events }

/-- Add an empty scalar, which stands where a value is left out. -/
def emitEmpty (mark : Mark) (r : Reading) : Reading :=
  r.emit (.scalar { text := "" }) mark

/-- Let an anchor name the event that comes next. -/
def define (anchor : Option (List Char)) (r : Reading) : Reading :=
  match anchor with
  | none => r
  | some name =>
      let number := r.anchors.length
      { r with
        anchors := (name, number) :: r.anchors.filter fun known =>
          known.1 != name
        targets := (number, r.events.length) :: r.targets }

/-- Read the anchor and the tag in front of a node, in either order. -/
def properties (r : Reading) : Except Fault (NodeProperties × Reading) := do
  let token ← r.peek
  let bare : NodeProperties :=
    { start := token.start, tagStart := token.start, stop := token.start }
  match token.kind with
  | .anchor name =>
      let found := { bare with anchor := some name, stop := token.stop }
      let next ← r.skip.peek
      match next.kind with
      | .tag handle suffix =>
          return ({ found with tag := some (handle, suffix),
                               tagStart := next.start,
                               stop := next.stop }, r.skip.skip)
      | _ => return (found, r.skip)
  | .tag handle suffix =>
      let found :=
        { bare with tag := some (handle, suffix), stop := token.stop }
      let next ← r.skip.peek
      match next.kind with
      | .anchor name =>
          return ({ found with anchor := some name, stop := next.stop },
            r.skip.skip)
      | _ => return (found, r.skip)
  | _ => return (bare, r)

def resolveTag (r : Reading) (found : NodeProperties) :
    Except Fault (Option (List Char)) :=
  match found.tag with
  | none => .ok none
  | some ([], suffix) => .ok (some suffix)
  | some (handle, suffix) =>
      match r.handles.find? fun known => known.1 == handle with
      | some (_, label) => .ok (some (label ++ suffix))
      | none =>
          .error (.within "found undefined tag handle" found.tagStart
            "while parsing a node" found.start)

/-- The mark alone says only that the scalar is no number or the like. -/
def scalarTag (tag : Option (List Char)) : Option (List Char) :=
  tag.filter fun tag => tag != ['!']

def node (block indentless : Bool) (r : Reading) : Except Fault Reading := do
  let token ← r.peek
  match token.kind with
  | .alias name =>
      match r.anchors.find? fun known => known.1 == name with
      | some (_, number) => return r.skip.emit (.alias number) token.start
      | none => throw (.at "unknown anchor" token.start)
  | _ =>
      let (found, r) ← r.properties
      let token ← r.peek
      let tag ← r.resolveTag found
      let start (kind : EventKind) (inside : Expected) : Reading :=
        ((r.define found.anchor).emit kind found.start).expect inside
      match token.kind with
      | .blockEntry =>
          if indentless then return start (.sequenceStart tag) .indentlessItem
          else absent r found token tag
      | .scalar text style =>
          let scalar : Scalar :=
            { text := String.ofList text, style := style, tag := scalarTag tag }
          return (r.skip.define found.anchor).emit (.scalar scalar) found.start
      | .flowSequenceStart =>
          return (start (.sequenceStart tag) (.flowItem true token.start)).skip
      | .flowMappingStart =>
          return (start (.mappingStart tag) (.flowKey true token.start)).skip
      | .blockSequenceStart =>
          if block then
            return (start (.sequenceStart tag) (.blockItem token.start)).skip
          else absent r found token tag
      | .blockMappingStart =>
          if block then
            return (start (.mappingStart tag) (.blockKey token.start)).skip
          else absent r found token tag
      | _ => absent r found token tag
where
  /-- No node follows: an anchor or a tag alone stands for an empty scalar. -/
  absent (r : Reading) (found : NodeProperties) (token : Token)
        (tag : Option (List Char)) :
      Except Fault Reading :=
    if found.anchor.isSome || found.tag.isSome then
      .ok ((r.define found.anchor).emit (.scalar { text := "", tag := tag })
        found.start)
    else
      .error (.within "did not find expected node content" token.start
        (if block then "while parsing a block node"
          else "while parsing a flow node") found.start)

/-- Read a node, or an empty scalar before one of some tokens. -/
def nodeOrEmpty (ends : List TokenKind) (expected : Expected)
    (emptyAt : Token → Mark) (r : Reading) : Except Fault Reading := do
  let token ← r.peek
  if ends.contains token.kind then return r.emitEmpty (emptyAt token)
  else return r.expect expected

/-- Take a step: read what is expected first, `r` having the rest open. -/
def step (r : Reading) : Expected → Except Fault Reading
  | .node block indentless => r.node block indentless
  | .blockItem start => do
      let token ← r.peek
      match token.kind with
      | .blockEntry =>
          (r.skip.expect (.blockItem start)).nodeOrEmpty
            [.blockEntry, .blockEnd] (.node true false) fun _ => token.stop
      | .blockEnd => return r.skip.emit .sequenceEnd token.start
      | _ =>
          throw (.within "did not find expected '-' indicator" token.start
            "while parsing a block collection" start)
  | .indentlessItem => do
      let token ← r.peek
      match token.kind with
      | .blockEntry =>
          (r.skip.expect .indentlessItem).nodeOrEmpty
            [.blockEntry, .key, .value, .blockEnd] (.node true false) fun _ =>
              token.stop
      | _ => return r.emit .sequenceEnd token.start
  | .blockKey start => do
      let token ← r.peek
      match token.kind with
      | .key =>
          ((r.skip.expect (.blockKey start)).expect .blockValue).nodeOrEmpty
            [.key, .value, .blockEnd] (.node true true) fun _ => token.stop
      | .blockEnd => return r.skip.emit .mappingEnd token.start
      | _ =>
          throw (.within "did not find expected key" token.start
            "while parsing a block mapping" start)
  | .blockValue => do
      let token ← r.peek
      match token.kind with
      | .value =>
          r.skip.nodeOrEmpty [.key, .value, .blockEnd] (.node true true)
            fun _ => token.stop
      | _ => return r.emitEmpty token.start
  | .flowItem first start => do
      let token ← r.peek
      let r ←
        if first || token.kind == .flowSequenceEnd then pure r
        else if token.kind == .flowEntry then pure r.skip
        else
          throw (.within "did not find expected ',' or ']'" token.start
            "while parsing a flow sequence" start)
      let token ← r.peek
      match token.kind with
      | .flowSequenceEnd => return r.skip.emit .sequenceEnd token.start
      | .key =>
          return ((r.skip.emit (.mappingStart none) token.start).expect
            (.flowItem false start)).expect .pairKey
      | _ =>
          return (r.expect (.flowItem false start)).expect (.node false false)
  | .pairKey => do
      let token ← r.peek
      match token.kind with
      | .value => return (r.skip.emitEmpty token.stop).expect .pairValue
      | .flowEntry => return (r.skip.emitEmpty token.stop).expect .pairValue
      | .flowSequenceEnd =>
          return (r.skip.emitEmpty token.stop).expect .pairValue
      | _ => return (r.expect .pairValue).expect (.node false false)
  | .pairValue => do
      let token ← r.peek
      let r := r.expect .pairEnd
      match token.kind with
      | .value =>
          r.skip.nodeOrEmpty [.flowEntry, .flowSequenceEnd] (.node false false)
            Token.start
      | _ => return r.emitEmpty token.start
  | .pairEnd => do
      let token ← r.peek
      return r.emit .mappingEnd token.start
  | .flowKey first start => do
      let token ← r.peek
      let r ←
        if first || token.kind == .flowMappingEnd then pure r
        else if token.kind == .flowEntry then pure r.skip
        else
          throw (.within "did not find expected ',' or '\x7d'" token.start
            "while parsing a flow mapping" start)
      let token ← r.peek
      match token.kind with
      | .flowMappingEnd => return r.skip.emit .mappingEnd token.start
      | .key =>
          ((r.skip.expect (.flowKey false start)).expect .flowValue).nodeOrEmpty
            [.value, .flowEntry, .flowMappingEnd] (.node false false)
            Token.start
      | _ =>
          return ((r.expect (.flowKey false start)).expect
            .emptyFlowValue).expect
            (.node false false)
  | .flowValue => do
      let token ← r.peek
      match token.kind with
      | .value =>
          r.skip.nodeOrEmpty [.flowEntry, .flowMappingEnd] (.node false false)
            Token.start
      | _ => return r.emitEmpty token.start
  | .emptyFlowValue => do
      let token ← r.peek
      return r.emitEmpty token.start

/-- Take steps until nothing is open, and tell the fault that stopped this, if
any; `fuel` bounds the number of steps. -/
def run : Nat → Reading → Reading × Option Fault
  | 0, r => (r, none)
  | fuel + 1, r =>
      match r.pending with
      | [] => (r, none)
      | expected :: others =>
          match { r with pending := others }.step expected with
          | .ok r => run fuel r
          | .error fault => (r, some fault)

/-- The abbreviations that are known in every document. -/
def defaultHandles : List (List Char × List Char) :=
  [(['!'], ['!']), (['!', '!'], "tag:yaml.org,2002:".toList)]

/-- Read the directives in front of a document, `versioned` telling whether one
of them gave a version and `own` being the abbreviations they made. -/
def directives : List Token → Bool → List (List Char × List Char) → Reading →
    Except Fault Reading
  | token :: tokens, versioned, own, r =>
      match token.kind with
      | .version major minor =>
          if versioned then
            .error (.at "found duplicate %YAML directive" token.start)
          else if major = 1 ∧ (minor = 1 ∨ minor = 2) then
            directives tokens true own r.skip
          else .error (.at "found incompatible YAML document" token.start)
      | .tagDirective handle label =>
          if own.any fun known => known.1 == handle then
            .error (.at "found duplicate %TAG directive" token.start)
          else directives tokens versioned (own ++ [(handle, label)]) r.skip
      | _ => .ok { r with handles := own ++ defaultHandles }
  | [], _, own, r => .ok { r with handles := own ++ defaultHandles }

/-- The tokens after which a document that was started has no value. -/
def endsDocument : TokenKind → Bool
  | .version .. => true
  | .tagDirective .. => true
  | .documentStart => true
  | .documentEnd => true
  | .streamEnd => true
  | _ => false

/-- Read up to the value of the first document and expect it. -/
def start (r : Reading) : Except Fault Reading := do
  let r := r.skip
  let token ← r.peek
  match token.kind with
  | .streamEnd => return r.emit .void token.start
  | kind =>
      if kind == .documentEnd || !endsDocument kind then
        return { r with handles := defaultHandles }.expect (.node true false)
      else
        let r ← r.directives r.tokens false []
        let token ← r.peek
        if token.kind == .documentStart then
          let token ← r.skip.peek
          if endsDocument token.kind then return r.skip.emitEmpty token.start
          else return r.skip.expect (.node true false)
        else throw (.at "did not find expected <document start>" token.start)

/-- Whether anything but a line that ends it comes after a document. -/
def isFollowed (r : Reading) : Bool :=
  match r.tokens.dropWhile fun token => token.kind == .documentEnd with
  | token :: _ => token.kind != .streamEnd
  | [] => true

/-- The document that was read.  Each alias is given the event that its number
names at the end. -/
def document (r : Reading) (fault : Option Fault) : Document :=
  let settle (event : Event) : Event :=
    match event.kind with
    | .alias number =>
        { event with kind := .alias ((r.targets.lookup number).getD 0) }
    | _ => event
  { events := r.events.reverse.map settle, fault := fault,
    followed := r.isFollowed }

end Reading

def Document.ofText (text : String) : Document :=
  let lexed := tokensOf text
  let r : Reading :=
    { tokens := lexed.tokens,
      fault := lexed.fault.getD (.at "did not find expected <stream-end>"
        ⟨0, 0, 0⟩) }
  match r.start with
  | .error fault => r.document (some fault)
  | .ok r =>
      match r.run (8 * r.tokens.length + 8) with
      | (r, some fault) => r.document (some fault)
      | (r, none) =>
          match r.peek with
          | .ok _ => r.document none
          | .error fault => r.document (some fault)

end WebConfigAudit.Yaml
