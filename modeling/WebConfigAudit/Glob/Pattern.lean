/-!
Glob patterns for paths: `?` for any one byte, `*` for any bytes, `**` between
slashes for any number of directories, `[a-z]` for a class and `{a,b}` for
alternatives.  A backslash takes the next character as it is.
-/

namespace WebConfigAudit.Glob

inductive Token where
  | literal (c : Char)
  | anyByte
  | anyBytes
  | directoriesBefore
  | directoriesAfter
  | directoriesBetween
  | oneOf (negated : Bool) (ranges : List (Char × Char))
  | alternatives (branches : List (List Token))
deriving Repr

inductive PatternError where
  | unclosedClass
  | invalidRange (first last : Char)
  | unopenedAlternatives
  | unclosedAlternatives
  | danglingEscape
deriving DecidableEq, Repr

/-- The wording of the error, apart from the pattern itself. -/
def PatternError.reason : PatternError → String
  | .unclosedClass => "unclosed character class; missing ']'"
  | .invalidRange first last =>
      "invalid range; '" ++ String.singleton first ++ "' > '" ++
        String.singleton last ++ "'"
  | .unopenedAlternatives =>
      "unopened alternate group; missing '\x7b' (maybe escape '\x7d' with '[\x7d]'?)"
  | .unclosedAlternatives =>
      "unclosed alternate group; missing '\x7d' (maybe escape '\x7b' with '[\x7b]'?)"
  | .danglingEscape => "dangling '\\'"

/-- The whole message about a pattern that cannot be read. -/
def PatternError.message (pattern : String) (e : PatternError) : String :=
  "error parsing glob '" ++ pattern ++ "': " ++ e.reason

/-- A class under way: the ranges so far, the last one first, and whether a
hyphen waits for the end of the last one. -/
structure ClassState where
  ranges : List (Char × Char)
  inRange : Bool

def ClassState.take (state : ClassState) (c : Char) :
    Except PatternError ClassState :=
  match state.ranges with
  | [] => .ok ⟨[(c, c)], false⟩
  | (first, last) :: ranges =>
      if state.inRange then
        if c < first then .error (.invalidRange first c)
        else .ok ⟨(first, c) :: ranges, false⟩
      else if c = '-' then .ok ⟨(first, last) :: ranges, true⟩
      else .ok ⟨(c, c) :: (first, last) :: ranges, false⟩

/-- The ranges of a finished class; a hyphen left over stands for itself. -/
def ClassState.finish (state : ClassState) : List (Char × Char) :=
  (if state.inRange then ('-', '-') :: state.ranges else state.ranges).reverse

/-- Read a class up to its closing bracket; one that comes first is a member. -/
def readClass (state : ClassState) :
    List Char → Except PatternError (List (Char × Char) × List Char)
  | [] => .error .unclosedClass
  | c :: rest =>
      if c = ']' ∧ state.ranges ≠ [] then .ok (state.finish, rest)
      else match state.take c with
        | .ok state => readClass state rest
        | .error e => .error e

/-- A list of alternatives under way: the current one, backwards, and those
before it, the latest first. -/
structure Branches where
  current : List Token
  finished : List (List Token)

/-- A pattern under way: the innermost list of alternatives, those around it,
and the last character read. -/
structure PatternState where
  inner : Branches
  outer : List Branches
  last : Option Char

def PatternState.start : PatternState := ⟨⟨[], []⟩, [], none⟩

/-- Add a part at the end of the current alternative. -/
def PatternState.push (state : PatternState) (token : Token) : PatternState :=
  { state with
    inner := { state.inner with current := token :: state.inner.current } }

def PatternState.passed (state : PatternState) (c : Char) : PatternState :=
  { state with last := some c }

def PatternState.inBraces (state : PatternState) : Bool :=
  !state.outer.isEmpty

/-- Two stars that do not stand between slashes are two single stars. -/
def PatternState.pushTwoStars (state : PatternState) : PatternState :=
  (state.push .anyBytes).push .anyBytes

/-- Take the place of the slash before two stars.  Stars that already reach over
directories absorb the new ones. -/
def PatternState.replaceSlash (state : PatternState) (token : Token) :
    PatternState :=
  match state.inner.current with
  | .directoriesBefore :: _ => state
  | .directoriesAfter :: _ => state
  | _ :: others =>
      { state with inner := { state.inner with current := token :: others } }
  | [] => state.push token

def PatternState.twoStars (state : PatternState) (rest : List Char) :
    PatternState × List Char :=
  let starred := state.passed '*'
  if state.inner.current.isEmpty then
    match rest with
    | [] => (starred.push .directoriesBefore, [])
    | '/' :: rest => ((starred.push .directoriesBefore).passed '/', rest)
    | rest => (starred.pushTwoStars, rest)
  else if state.last = some '/' ∨
      (state.inBraces = true ∧
        (state.last = some ',' ∨ state.last = some '\x7b')) then
    match rest with
    | [] => (starred.replaceSlash .directoriesAfter, [])
    | '/' :: rest =>
        ((starred.replaceSlash .directoriesBetween).passed '/', rest)
    | c :: rest =>
        if state.inBraces = true ∧ (c = ',' ∨ c = '\x7d') then
          (starred.replaceSlash .directoriesAfter, c :: rest)
        else (starred.pushTwoStars, c :: rest)
  else (starred.pushTwoStars, rest)

/-- Read one part of a pattern that starts with the given character. -/
def PatternState.step (state : PatternState) (c : Char) (rest : List Char) :
    Except PatternError (PatternState × List Char) :=
  if c = '?' then .ok ((state.push .anyByte).passed c, rest)
  else if c = '*' then
    match rest with
    | '*' :: rest => .ok (state.twoStars rest)
    | rest => .ok ((state.push .anyBytes).passed c, rest)
  else if c = '[' then
    let (negated, members) := match rest with
      | '!' :: members => (true, members)
      | '^' :: members => (true, members)
      | members => (false, members)
    match readClass ⟨[], false⟩ members with
    | .ok (ranges, rest) =>
        .ok ((state.push (.oneOf negated ranges)).passed ']', rest)
    | .error e => .error e
  else if c = '\x7b' then
    .ok (⟨⟨[], []⟩, state.inner :: state.outer, some c⟩, rest)
  else if c = '\x7d' then
    match state.outer with
    | [] => .error .unopenedAlternatives
    | around :: outer =>
        let branches :=
          (state.inner.current.reverse :: state.inner.finished).reverse
        .ok ((PatternState.mk around outer (some c)).push
          (.alternatives branches), rest)
  else if c = ',' ∧ state.inBraces = true then
    .ok (⟨⟨[], state.inner.current.reverse :: state.inner.finished⟩,
      state.outer, some c⟩, rest)
  else if c = '\\' then
    match rest with
    | [] => .error .danglingEscape
    | x :: rest => .ok ((state.push (.literal x)).passed x, rest)
  else .ok ((state.push (.literal c)).passed c, rest)

/-- Read parts to the end of the text; `fuel` bounds their number. -/
def readTokens :
    Nat → PatternState → List Char → Except PatternError PatternState
  | _, state, [] => .ok state
  | 0, state, _ => .ok state
  | fuel + 1, state, c :: rest =>
      match state.step c rest with
      | .ok (state, rest) => readTokens fuel state rest
      | .error e => .error e

def parse (text : String) : Except PatternError (List Token) := do
  let cs := text.toList
  let state ← readTokens cs.length .start cs
  if state.inBraces then .error .unclosedAlternatives
  else return state.inner.current.reverse

end WebConfigAudit.Glob
