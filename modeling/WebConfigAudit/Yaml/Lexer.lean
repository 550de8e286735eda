import WebConfigAudit.Yaml.Property
/-!
From the characters of a YAML text to its tokens.

A key on one line is known to be one only at the colon after it, so the lexer
remembers where a key may have started and puts the token of the key there once
it meets the colon.
-/

namespace WebConfigAudit.Yaml

/-- A place where a key may have started: the number of its token, and whether
only a key may stand there. -/
structure PossibleKey where
  required : Bool
  number : Nat
  mark : Mark
deriving Repr

/-- A text under way.  The tokens come latest first; `indents` are the columns
of the blocks around the current one; `keys` has an entry for the block context
and one for each open bracket, innermost first. -/
structure Lexer where
  place : Place
  tokens : List Token := []
  count : Nat := 0
  flowDepth : Nat := 0
  indent : Int := -1
  indents : List Int := []
  keyAllowed : Bool := true
  keys : List (Option PossibleKey) := [none]
  ended : Bool := false

namespace Lexer

def inFlow (s : Lexer) : Bool := s.flowDepth ≠ 0

def push (s : Lexer) (token : Token) : Lexer :=
  { s with tokens := token :: s.tokens, count := s.count + 1 }

/-- Put a token in front of the one with the given number. -/
def insert (s : Lexer) (number : Nat) (token : Token) : Lexer :=
  { s with
    tokens := s.tokens.take (s.count - number) ++ token ::
      s.tokens.drop (s.count - number)
    count := s.count + 1 }

/-- Add a token of `n` characters, which come next. -/
def take (s : Lexer) (n : Nat) (kind : TokenKind) : Lexer :=
  let after := s.place.skip n
  { s.push ⟨kind, s.place.mark, after.mark⟩ with place := after }

def missingColon (s : Lexer) (key : PossibleKey) : Fault :=
  .within "could not find expected ':'" s.place.mark
    "while scanning a simple key" key.mark

/-- Whether a key that started there can no longer end here: it has to end on
its line and within 1024 characters. -/
def isStale (s : Lexer) (key : PossibleKey) : Bool :=
  key.mark.line < s.place.mark.line ||
    key.mark.index + 1024 < s.place.mark.index

def dropStale (s : Lexer) : Except Fault Lexer :=
  let stale (key : PossibleKey) : Bool := s.isStale key
  match s.keys.reverse.find? fun key => key.any fun key =>
    stale key && key.required with
  | some (some key) => .error (s.missingColon key)
  | _ =>
      .ok { s with
        keys := s.keys.map fun key => key.filter fun key => !stale key }

/-- Forget the key that may have started in the current context. -/
def dropKey (s : Lexer) : Except Fault Lexer :=
  match s.keys with
  | some key :: others =>
      if key.required then .error (s.missingColon key)
      else .ok { s with keys := none :: others }
  | _ => .ok s

def noteKey (s : Lexer) : Except Fault Lexer :=
  if s.keyAllowed then do
    let key : PossibleKey :=
      { required := !s.inFlow && s.indent == (s.place.mark.column : Int)
        number := s.count
        mark := s.place.mark }
    let s ← s.dropKey
    return { s with keys := some key :: s.keys.tail }
  else return s

/-- Start a block at a column if it is further in than the current one.  The
token of its start goes in front of the one with the given number. -/
def openBlock (s : Lexer) (column : Nat) (number : Nat) (kind : TokenKind)
    (mark : Mark) : Lexer :=
  if !s.inFlow && decide (s.indent < (column : Int)) then
    { s.insert number ⟨kind, mark, mark⟩ with
      indents := s.indent :: s.indents
      indent := column }
  else s

/-- Close the blocks that are further in than a column, `outer` being those
around the current one. -/
def closeBlocksFrom (column : Int) : List Int → Lexer → Lexer
  | [], s => s
  | outer :: others, s =>
      if s.indent > column then
        closeBlocksFrom column others
          { s.push ⟨.blockEnd, s.place.mark, s.place.mark⟩ with
            indent := outer, indents := others }
      else s

/-- Close the blocks further in than a column, outside brackets. -/
def closeBlocks (s : Lexer) (column : Int) : Lexer :=
  if s.inFlow then s else closeBlocksFrom column s.indents s

/-- Pass over blanks, comments and line ends.  Tabs count as blanks only where
no key may start; `fuel` bounds the number of lines. -/
def skipGapFrom : Nat → Lexer → Lexer
  | 0, s => s
  | fuel + 1, s =>
      let p := s.place.skipWhile fun c =>
        c == ' ' || ((s.inFlow || !s.keyAllowed) && c == '\t')
      let p := if p.isAt '#' then p.skipWhile fun c => !isBreak c else p
      if p.atBreak then
        skipGapFrom fuel
          { s with place := p.skipBreak.2,
                   keyAllowed := s.keyAllowed || !s.inFlow }
      else { s with place := p }

/-- The mark that may stand in front of a text. -/
def byteOrderMark : Char := '\ufeff'

def skipGap (s : Lexer) : Lexer :=
  let s :=
    if s.place.mark.index = 0 ∧ s.place.isAt byteOrderMark = true then
      { s with place := s.place.skip 1 }
    else s
  skipGapFrom (s.place.rest.length + 1) s

def fetchEnd (s : Lexer) : Except Fault Lexer := do
  let mark := s.place.mark
  let mark := if mark.column = 0 then mark
    else { mark with line := mark.line + 1, column := 0 }
  let s ← ({ s with place := { s.place with mark := mark } }.closeBlocks
    (-1)).dropKey
  return { s.take 0 .streamEnd with keyAllowed := false, ended := true }

def fetchDirective (s : Lexer) : Except Fault Lexer := do
  let s ← (s.closeBlocks (-1)).dropKey
  let (token, p) ← readDirective s.place
  return { s.push token with place := p, keyAllowed := false }

/-- The line that starts or ends a document. -/
def fetchBoundary (s : Lexer) (kind : TokenKind) : Except Fault Lexer := do
  let s ← (s.closeBlocks (-1)).dropKey
  return { s.take 3 kind with keyAllowed := false }

def fetchOpening (s : Lexer) (kind : TokenKind) : Except Fault Lexer := do
  let s ← s.noteKey
  return { s.take 1 kind with
    keys := none :: s.keys, flowDepth := s.flowDepth + 1, keyAllowed := true }

def fetchClosing (s : Lexer) (kind : TokenKind) : Except Fault Lexer := do
  let s ← s.dropKey
  let s :=
    if s.inFlow then
      { s with keys := s.keys.tail, flowDepth := s.flowDepth - 1 }
    else s
  return { s.take 1 kind with keyAllowed := false }

def fetchComma (s : Lexer) : Except Fault Lexer := do
  let s ← s.dropKey
  return { s.take 1 .flowEntry with keyAllowed := true }

/-- A hyphen that starts an entry; between brackets it is a fault for later. -/
def fetchHyphen (s : Lexer) : Except Fault Lexer := do
  if !s.inFlow && !s.keyAllowed then
    throw (.at "block sequence entries are not allowed in this context"
      s.place.mark)
  else
    let s :=
      s.openBlock s.place.mark.column s.count .blockSequenceStart s.place.mark
    let s ← s.dropKey
    return { s.take 1 .blockEntry with keyAllowed := true }

def fetchQuestion (s : Lexer) : Except Fault Lexer := do
  if !s.inFlow && !s.keyAllowed then
    throw (.at "mapping keys are not allowed in this context" s.place.mark)
  else
    let s :=
      s.openBlock s.place.mark.column s.count .blockMappingStart s.place.mark
    let s ← s.dropKey
    return { s.take 1 .key with keyAllowed := !s.inFlow }

def fetchColon (s : Lexer) : Except Fault Lexer := do
  match s.keys with
  | some key :: others =>
      let s := s.insert key.number ⟨.key, key.mark, key.mark⟩
      let s :=
        s.openBlock key.mark.column key.number .blockMappingStart key.mark
      return { s.take 1 .value with
        keys := none :: others, keyAllowed := false }
  | _ =>
      if !s.inFlow && !s.keyAllowed then
        throw (.at "mapping values are not allowed in this context"
          s.place.mark)
      else
        let s := s.openBlock s.place.mark.column s.count .blockMappingStart
          s.place.mark
        return { s.take 1 .value with keyAllowed := !s.inFlow }

/-- Add a token that may be a key or start one. -/
def finishKeyLike (s : Lexer) (kind : TokenKind) (stop : Mark) (next : Place) :
    Lexer :=
  { s.push ⟨kind, s.place.mark, stop⟩ with place := next, keyAllowed := false }

def fetchAnchor (s : Lexer) (isAlias : Bool) : Except Fault Lexer := do
  let s ← s.noteKey
  let (name, p) ← readAnchor isAlias s.place
  return s.finishKeyLike (if isAlias then .alias name else .anchor name)
    p.mark p

def fetchTag (s : Lexer) : Except Fault Lexer := do
  let s ← s.noteKey
  let (handle, suffix, p) ← readTag s.inFlow s.place
  return s.finishKeyLike (.tag handle suffix) p.mark p

def fetchQuoted (s : Lexer) (single : Bool) : Except Fault Lexer := do
  let s ← s.noteKey
  let (text, p) ← readQuoted single s.place
  return s.finishKeyLike
    (.scalar text (if single then .singleQuoted else .doubleQuoted)) p.mark p

/-- A plain scalar.  If it ends on an earlier line than the place where reading
goes on, a key may start there. -/
def fetchPlain (s : Lexer) : Except Fault Lexer := do
  let s ← s.noteKey
  let scalar ← readPlain s.inFlow (s.indent + 1) s.place
  return { s.finishKeyLike (.scalar scalar.text .plain) scalar.stop
             scalar.next with
    keyAllowed := scalar.broken }

def fetchBlock (s : Lexer) (folded : Bool) : Except Fault Lexer := do
  let s ← s.dropKey
  let (text, p) ← readBlock folded s.indent s.place
  return { s.push ⟨.scalar text (if folded then .folded else .literal),
    s.place.mark, p.mark⟩ with
    place := p, keyAllowed := true }

/-- What starts no plain scalar, three of them unless something follows. -/
def isIndicator (c : Char) : Bool :=
  "-?:,[]\x7b\x7d#&*!|>'\"%@`".toList.contains c

def startsPlain (s : Lexer) (c : Char) : Bool :=
  !(isBlank c || isBreak c || isIndicator c) ||
    (c == '-' && !(s.place.peekAt 1).any isBlank) ||
    (!s.inFlow && (c == '?' || c == ':') && !s.place.isGapAt 1)

/-- The tokens that start with the next character. -/
def fetchAt (s : Lexer) (c : Char) : Except Fault Lexer :=
  let p := s.place
  let gapOrFlow := s.inFlow || p.isGapAt 1
  if p.mark.column = 0 ∧ c = '%' then s.fetchDirective
  else if p.atDocumentMark '-' then s.fetchBoundary .documentStart
  else if p.atDocumentMark '.' then s.fetchBoundary .documentEnd
  else if c = '[' then s.fetchOpening .flowSequenceStart
  else if c = '\x7b' then s.fetchOpening .flowMappingStart
  else if c = ']' then s.fetchClosing .flowSequenceEnd
  else if c = '\x7d' then s.fetchClosing .flowMappingEnd
  else if c = ',' then s.fetchComma
  else if c = '-' ∧ p.isGapAt 1 = true then s.fetchHyphen
  else if c = '?' ∧ gapOrFlow = true then s.fetchQuestion
  else if c = ':' ∧ gapOrFlow = true then s.fetchColon
  else if c = '*' then s.fetchAnchor true
  else if c = '&' then s.fetchAnchor false
  else if c = '!' then s.fetchTag
  else if c = '|' ∧ s.inFlow = false then s.fetchBlock false
  else if c = '>' ∧ s.inFlow = false then s.fetchBlock true
  else if c = '\'' then s.fetchQuoted true
  else if c = '"' then s.fetchQuoted false
  else if s.startsPlain c then s.fetchPlain
  else
    .error (.within "found character that cannot start any token" p.mark
      "while scanning for the next token" p.mark)

def fetch (s : Lexer) : Except Fault Lexer := do
  let s ← s.skipGap.dropStale
  let s := s.closeBlocks s.place.mark.column
  let s ← match s.place.peek with
    | none => s.fetchEnd
    | some c => s.fetchAt c
  s.dropStale

/-- How many tokens stand before the first place where a key may start. -/
def certain (s : Lexer) : Nat :=
  s.keys.foldl (fun n key => match key with
    | some key => min n key.number
    | none => n) s.count

end Lexer

/-- The tokens of a text, and the fault that cut them short, if any. -/
structure Lexed where
  tokens : List Token
  fault : Option Fault

/-- Read tokens to the end of the text.  After a fault only the tokens that were
certain before it are given; `fuel` bounds the number of steps. -/
def Lexer.run : Nat → Lexer → Lexed
  | 0, s => ⟨s.tokens.reverse, none⟩
  | fuel + 1, s =>
      if s.ended then ⟨s.tokens.reverse, none⟩
      else match s.fetch with
        | .ok s => Lexer.run fuel s
        | .error fault => ⟨s.tokens.reverse.take s.certain, some fault⟩

/-- How many bytes the encoding of some characters takes. -/
def encodedLength (cs : List Char) : Nat :=
  cs.foldl (fun n c => n + c.utf8Size) 0

/-- The tokens of a text; a character no text may hold is the first fault. -/
def tokensOf (text : String) : Lexed :=
  let cs := text.toList
  let start : Lexer := ({ place := Place.start cs : Lexer }).take 0 .streamStart
  match cs.dropWhile isPrintable with
  | [] => Lexer.run (cs.length + 2) start
  | _ :: _ =>
      ⟨start.tokens,
        some (.character (encodedLength (cs.takeWhile isPrintable)))⟩

end WebConfigAudit.Yaml
