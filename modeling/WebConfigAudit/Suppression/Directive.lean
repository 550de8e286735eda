import WebConfigAudit.Suppression.Basic
import WebConfigAudit.Text.CharClass
import WebConfigAudit.Text.Pieces
/-!
Suppression directives in comments, such as

    <!-- webcfg-guard:ignore-next-line RuleName - why the rule is off here -->

A line holds at most one directive, the first that can be read on it.
-/

namespace WebConfigAudit

inductive DirectiveWord where
  | ignore
  | ignoreFile
  | ignoreNextLine
deriving DecidableEq, Repr

/-- A directive as it stands on its line: the text before it, the rule it names
and the reason it gives. -/
structure Directive where
  before : List Char
  word : DirectiveWord
  rule : List Char
  reason : Option (List Char)
deriving DecidableEq, Repr

namespace Directive

def opening : List Char := ['<', '!', '-', '-']

def closing : List Char := ['-', '-', '>']

/-- The name that marks a comment as a directive. -/
def marker : List Char := "webcfg-guard:".toList

/-- Read what follows the rule name.  A hyphen after blanks starts the reason,
which runs to the next closing; only if there is none may the hyphen belong to
the closing itself. -/
def readReason? (cs : List Char) : Option (Option (List Char)) :=
  match Text.trimStart cs with
  | '-' :: rest =>
      match Text.before? closing (Text.trimStart rest) with
      | some reason => some (some (Text.trimEnd reason))
      | none => if closing.isPrefixOf ('-' :: rest) then some none else none
  | _ => none

/-- Read a rule name and what follows it.  The whole word is the name if that
can be read, otherwise the longest part of it that can; `length` is the length
tried first. -/
def readRule? (word after : List Char) :
    Nat → Option (List Char × Option (List Char))
  | 0 => none
  | length + 1 =>
      match readReason? (word.drop (length + 1) ++ after) with
      | some reason => some (word.take (length + 1), reason)
      | none => readRule? word after length

def readWord? (cs : List Char) : Option (DirectiveWord × List Char) := do
  let rest ← Text.after? "ignore".toList cs
  match Text.after? "-file".toList rest with
  | some rest => return (.ignoreFile, rest)
  | none =>
      match Text.after? "-next-line".toList rest with
      | some rest => return (.ignoreNextLine, rest)
      | none => return (.ignore, rest)

/-- Read a directive that starts exactly here. -/
def readHere? (cs : List Char) : Option Directive := do
  let rest ← Text.after? opening cs
  let rest ← Text.after? marker (Text.trimStart rest)
  let (word, rest) ← readWord? rest
  if (rest.takeWhile Text.isBlank).isEmpty then none
  else
    let rest := Text.trimStart rest
    let name := rest.takeWhile fun c => !Text.isBlank c
    let (rule, reason) ← readRule? name (rest.drop name.length) name.length
    return ⟨[], word, rule, reason⟩

/-- Read the first directive at or after a place; `passed` holds the text before
it, backwards. -/
def readFrom? (passed : List Char) : List Char → Option Directive
  | [] => none
  | c :: rest =>
      match readHere? (c :: rest) with
      | some directive => some { directive with before := passed.reverse }
      | none => readFrom? (c :: passed) rest

def ofLine? (line : List Char) : Option Directive :=
  readFrom? [] line

/-- What the directive covers.  A plain directive with nothing but blanks before
it covers the next line, any other its own line. -/
def scope (d : Directive) : Scope :=
  match d.word with
  | .ignoreFile => .file
  | .ignoreNextLine => .nextLine
  | .ignore => if d.before.all Text.isBlank then .nextLine else .line

/-- The suppression that the directive on a line of a file stands for. -/
def suppression (d : Directive) (file : String) (line : Nat) : Suppression where
  rule := String.ofList d.rule
  reason := String.ofList (Text.trimChars (d.reason.getD []))
  file := file
  line := if d.scope = .file then 0 else line
  scope := d.scope

end Directive

/-- The suppressions of consecutive lines, counted from the given number. -/
def suppressionsOfLines (file : String) :
    Nat → List (List Char) → List Suppression
  | _, [] => []
  | number, line :: lines =>
      match Directive.ofLine? line with
      | some d =>
          d.suppression file number ::
            suppressionsOfLines file (number + 1) lines
      | none => suppressionsOfLines file (number + 1) lines

/-- The suppressions that a text declares, in the order of their lines. -/
def readSuppressions (file content : String) : List Suppression :=
  suppressionsOfLines file 1 (Text.linesOf content.toList)

end WebConfigAudit
