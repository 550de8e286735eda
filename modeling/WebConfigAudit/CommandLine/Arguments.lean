import WebConfigAudit.FileTree.Path
/-!
The arguments of the program: which command they ask for, or why reading them
stops.

Values are checked late: an option's value, and a path, are settled only when
the next flag or path comes or the arguments end.  So an argument that has no
place is reported before a fault in the value just ahead of it.
-/

namespace WebConfigAudit

/-- What a lint is asked to do.  The format is checked by the command itself. -/
structure LintArguments where
  path : Path
  contract : Option Path := none
  format : String := "pretty"
  showSuppressed : Bool := false
deriving DecidableEq, Repr

inductive Command where
  | lint (arguments : LintArguments)
  | rules (contract : Option Path)
  | init (output : Path)
deriving DecidableEq, Repr

/-- A command, and how many times more log output was asked for. -/
structure Invocation where
  command : Command
  verbosity : Nat
deriving DecidableEq, Repr

inductive UsageStop where
  | help
  | version
  | nothingAsked
  | missingCommand
  | missingPath
  | unknownCommand
  | unknownArgument
  | badValue
  | unexpectedValue
  | repeatedOption
deriving DecidableEq, Repr

/-- The exit code after the stop: asking for help or the version is no error. -/
def UsageStop.exitCode : UsageStop → Nat
  | .help => 0
  | .version => 0
  | _ => 2

inductive CommandName where
  | lint
  | rules
  | init
  | help
deriving DecidableEq, Repr

def CommandName.ofWord? : String → Option CommandName
  | "lint" => some .lint
  | "check" => some .lint
  | "rules" => some .rules
  | "init" => some .init
  | "help" => some .help
  | _ => none

/-- What takes a value: the path, or an option. -/
inductive Slot where
  | path
  | contract
  | format
  | output
deriving DecidableEq, Repr

/-- Whether the value may be empty; a path may not. -/
def Slot.admitsEmpty (slot : Slot) : Bool :=
  slot == .format

/-- The options of a command that take a value, with their letters and words. -/
def CommandName.options : CommandName → List (Char × String × Slot)
  | .lint => [('c', "contract", .contract), ('f', "format", .format)]
  | .rules => [('c', "contract", .contract)]
  | .init => [('o', "output", .output)]
  | .help => []

/-- Arguments under way: the values that are settled, the one that is not, what
was seen so far, and whether only paths may follow. -/
structure ArgumentReading where
  values : List (Slot × String) := []
  unsettled : Option (Slot × Option String) := none
  pathSeen : Bool := false
  showSuppressed : Bool := false
  verbosity : Nat := 0
  onlyPaths : Bool := false
deriving Repr

namespace ArgumentReading

/-- Settle a value.  A second value for one option is refused before the value
is looked at. -/
def assign (r : ArgumentReading) (slot : Slot) (value : String) :
    Except UsageStop ArgumentReading :=
  if r.values.any fun settled => settled.1 == slot then .error .repeatedOption
  else if value.isEmpty && !slot.admitsEmpty then .error .badValue
  else .ok { r with values := r.values ++ [(slot, value)] }

/-- Settle the value that is not settled yet; an option must have one. -/
def settle (r : ArgumentReading) : Except UsageStop ArgumentReading :=
  match r.unsettled with
  | none => .ok r
  | some (_, none) => .error .badValue
  | some (slot, some value) => { r with unsettled := none }.assign slot value

/-- Ask for help, which a fault in the value before it prevents. -/
def askHelp (r : ArgumentReading) : Except UsageStop ArgumentReading := do
  let _ ← r.settle
  throw .help

/-- Ask for more log output.  It does not count beyond 255. -/
def moreVerbose (r : ArgumentReading) : Except UsageStop ArgumentReading := do
  let r ← r.settle
  return { r with verbosity := min 255 (r.verbosity + 1) }

/-- Ask for suppressed violations, which may be done once. -/
def askSuppressed (r : ArgumentReading) : Except UsageStop ArgumentReading := do
  let r ← r.settle
  if r.showSuppressed then throw .repeatedOption
  else return { r with showSuppressed := true }

/-- Take a path, if the command takes one and has none yet.  One too many is
refused whatever the value before it is. -/
def takePath (command : CommandName) (r : ArgumentReading) (word : String) :
    Except UsageStop ArgumentReading := do
  if command = .lint ∧ r.pathSeen = false then
    let r ← r.settle
    return { r with unsettled := some (.path, some word), pathSeen := true }
  else throw .unknownArgument

/-- Take an option whose value was given with it, or whose value comes next. -/
def takeOption (r : ArgumentReading) (slot : Slot) (value : Option String) :
    Except UsageStop ArgumentReading := do
  let r ← r.settle
  match value with
  | some value => r.assign slot value
  | none => return { r with unsettled := some (slot, none) }

/-- Take an option written as a word, after its two hyphens. -/
def takeWord (command : CommandName) (r : ArgumentReading) (word : List Char) :
    Except UsageStop ArgumentReading := do
  let name := String.ofList (word.takeWhile (· ≠ '='))
  let value := match word.dropWhile (· ≠ '=') with
    | [] => none
    | _ :: value => some (String.ofList value)
  let flag (take : ArgumentReading → Except UsageStop ArgumentReading) :
      Except UsageStop ArgumentReading :=
    if value.isSome then .error .unexpectedValue else take r
  match command.options.find? fun option => option.2.1 == name with
  | some (_, _, slot) => r.takeOption slot value
  | none =>
      if name = "verbose" then flag moreVerbose
      else if name = "help" then flag askHelp
      else if name = "show-suppressed" ∧ command = .lint then flag askSuppressed
      else .error .unknownArgument

/-- Take options written as letters, after their hyphen.  What follows the
letter of an option that takes a value is that value; an equals sign before it
does not count. -/
def takeLetters (command : CommandName) : List Char → ArgumentReading →
    Except UsageStop ArgumentReading
  | [], r => .ok r
  | c :: rest, r =>
      match command.options.find? fun option => option.1 == c with
      | some (_, _, slot) =>
          r.takeOption slot (match rest with
            | [] => none
            | '=' :: value => some (String.ofList value)
            | value => some (String.ofList value))
      | none =>
          if c = 'v' then r.moreVerbose.bind (takeLetters command rest)
          else if c = 'h' then r.askHelp
          else .error .unknownArgument

def take (command : CommandName) (r : ArgumentReading) (word : String) :
    Except UsageStop ArgumentReading :=
  if r.onlyPaths then r.takePath command word
  else match word.toList with
    | ['-', '-'] => .ok { r with onlyPaths := true }
    | '-' :: '-' :: name => r.takeWord command name
    | '-' :: c :: rest => takeLetters command (c :: rest) r
    | _ =>
        match r.unsettled with
        | some (slot, none) =>
            .ok { r with unsettled := some (slot, some word) }
        | _ => r.takePath command word

def value? (r : ArgumentReading) (slot : Slot) : Option String :=
  (r.values.find? fun settled => settled.1 == slot).map Prod.snd

end ArgumentReading

def commandOf (name : CommandName) (r : ArgumentReading) :
    Except UsageStop Command :=
  let contract := (r.value? .contract).map Path.mk
  match name with
  | .lint =>
      match r.value? .path with
      | some path =>
          .ok (.lint
            { path := ⟨path⟩
              contract := contract
              format := (r.value? .format).getD "pretty"
              showSuppressed := r.showSuppressed })
      | none => .error .missingPath
  | .rules => .ok (.rules contract)
  | .init => .ok (.init ⟨(r.value? .output).getD "webcfg-guard.yaml"⟩)
  | .help => .error .help

/-- Read the words after `help`, each of which must name a command.  No command
has commands of its own. -/
def readHelp : List String → UsageStop
  | [] => .help
  | [word] =>
      if (CommandName.ofWord? word).isSome then .help else .unknownCommand
  | _ => .unknownCommand

/-- Read the words after the name of a command.  `outer` is how much log output
was asked for before the name, which counts if none is asked for after it. -/
def readCommand (name : CommandName) (outer : Nat) (words : List String) :
    Except UsageStop Invocation := do
  if name = .help then throw (readHelp words)
  let r ← words.foldlM (fun r word => r.take name word) ({} : ArgumentReading)
  let r ← r.settle
  let command ← commandOf name r
  return ⟨command, if r.verbosity = 0 then outer else r.verbosity⟩

/-- Read letters before the name of a command, after their hyphen. -/
def readOuterLetters : List Char → Nat → Except UsageStop Nat
  | [], verbosity => .ok verbosity
  | c :: rest, verbosity =>
      if c = 'v' then readOuterLetters rest (min 255 (verbosity + 1))
      else if c = 'h' then .error .help
      else if c = 'V' then .error .version
      else .error .unknownArgument

/-- Read a word before the name of a command, after its two hyphens. -/
def readOuterWord (word : List Char) (verbosity : Nat) : Except UsageStop Nat :=
  let name := String.ofList (word.takeWhile (· ≠ '='))
  if ["verbose", "help", "version"].contains name && word.contains '=' then
    .error .unexpectedValue
  else if name = "verbose" then .ok (min 255 (verbosity + 1))
  else if name = "help" then .error .help
  else if name = "version" then .error .version
  else .error .unknownArgument

/-- Read arguments up to the name of a command and then as the command does.
`escaped` tells whether two hyphens alone have come, after which no name is
looked for. -/
def readFrom (escaped : Bool) (verbosity : Nat) :
    List String → Except UsageStop Invocation
  | [] => .error (if verbosity = 0 then .nothingAsked else .missingCommand)
  | word :: words =>
      match CommandName.ofWord? word with
      | some name =>
          if escaped then .error .unknownArgument
          else readCommand name verbosity words
      | none =>
          if escaped then .error .unknownCommand
          else match word.toList with
            | ['-', '-'] => readFrom true verbosity words
            | '-' :: '-' :: name =>
                (readOuterWord name verbosity).bind fun verbosity =>
                  readFrom false verbosity words
            | '-' :: c :: rest =>
                (readOuterLetters (c :: rest) verbosity).bind fun verbosity =>
                  readFrom false verbosity words
            | _ => .error .unknownCommand

def readArguments (words : List String) : Except UsageStop Invocation :=
  readFrom false 0 words

end WebConfigAudit
