import WebConfigAudit.CommandLine.Run
import WebConfigAudit.Report.Summary
/-!
The program: it takes a picture of the files that a command looks at, runs the
command on it, makes the files that the command added, and prints what the
command says.
-/

namespace WebConfigAudit.Program

/-- A picture under way: the items so far, and the directories that were listed
with all below. -/
structure Picture where
  tree : FileTree := {}
  listed : List Location := []

/-- An action that adds to a picture. -/
abbrev Look := StateT Picture IO

/-- The names on the way to an absolute path. -/
def placeOf (path : String) : Location :=
  (path.splitOn "/").filter fun name => !name.isEmpty

def pathOf (place : Location) : String :=
  (Location.path place).text

def keep (place : Location) (item : Item) : Look Unit :=
  modify fun picture => { picture with tree := picture.tree.put place item }

def keepWay (place : Location) : Look Unit := do
  for length in List.range place.length do
    if length > 0 then keep (place.take length) .directory

/-- The text of a file, if it can be read and is one. -/
def readContent (place : Location) : IO (Option String) := do
  try return String.fromUTF8? (← IO.FS.readBinFile (pathOf place))
  catch _ => return none

def hasContent (name : String) : Bool :=
  Path.isTargetName ⟨name⟩ || contractNames.contains name

def isOfInterest (name : String) : Bool :=
  hasContent name || Path.isProjectFile ⟨name⟩

/-- The place that a path leads to through all links, if it leads anywhere. -/
def realPlace (path : String) : IO (Option Location) := do
  try return some (placeOf (← IO.FS.realPath path).toString)
  catch _ => return none

/-- Add what stands in a directory: its files that matter, and if `deep` all
below it.  A link is kept with the place that it leads to. -/
partial def lookInto (deep : Bool) (place : Location) : Look Unit := do
  if deep && (← get).listed.contains place then return
  if deep then modify fun picture =>
    { picture with listed := place :: picture.listed }
  keepWay place
  if !place.isEmpty then keep place .directory
  let entries ← try (← IO.FS.realPath (pathOf place)).readDir catch _ =>
    pure #[]
  for entry in entries do
    let inner := place ++ [entry.fileName]
    match (← entry.path.symlinkMetadata).type with
    | .dir => if deep && entersDirectory entry.fileName then lookInto true inner
    | .file =>
        if isOfInterest entry.fileName then
          keep inner
            (.file (← if hasContent entry.fileName then readContent inner
              else pure none))
    | .symlink =>
        match ← realPlace (pathOf inner) with
        | none => pure ()
        | some target =>
            keep inner (.link (pathOf target))
            keepWay target
            if ← (← IO.FS.realPath (pathOf target)).isDir then
              if deep && entersDirectory entry.fileName then
                lookInto true target
            else if isOfInterest entry.fileName then
              keep target (.file (← readContent target))
    | .other => pure ()

/-- Add what a path leads to, and every link on its way. -/
def lookAt (current : Location) (path : Path) : Look Unit := do
  let mut place : Location := if path.isAbsolute then [] else current
  for piece in path.pieces do
    if Path.isIdle piece then continue
    if piece = ['.', '.'] then place := place.dropLast; continue
    let inner := place ++ [String.ofList piece]
    match ← realPlace (pathOf inner) with
    | none => return
    | some target =>
        keepWay inner
        if target ≠ inner then
          keep inner (.link (pathOf target))
          keepWay target
        if ← (← IO.FS.realPath (pathOf target)).isDir then
          keep target .directory
        else keep target (.file (← readContent target))
        place := target
  if ← (← IO.FS.realPath (pathOf place)).isDir then lookInto true place
  for length in List.range place.length do
    lookInto false (place.take length)

/-- The paths that a command starts from. -/
def startsOf : Command → List Path
  | .lint arguments => arguments.path :: arguments.contract.toList
  | .rules contract => contract.toList
  | .init path => path :: path.parent?.toList

/-- A picture of the files that a command looks at. -/
def take (command : Command) : IO FileTree := do
  let current := placeOf (← IO.currentDir).toString
  let look : Look Unit := do
    lookInto false current
    for path in startsOf command do lookAt current path
  let (_, picture) ← look.run {}
  return { picture.tree with current := current }

/-- Make the files and directories that were added to a picture. -/
def makeAdded (before after : FileTree) : IO Unit := do
  for (place, item) in after.items do
    if (before.item? place).isNone then
      match item with
      | .directory => IO.FS.createDir (pathOf place)
      | .file content => IO.FS.writeFile (pathOf place) (content.getD "")
      | .link _ => pure ()

def usageText : UsageStop → String
  | .version => Tool.name ++ " " ++ Tool.version ++ "\n"
  | .help =>
      "Usage: " ++ Tool.name ++ " <COMMAND>\n\n" ++
        "Commands:\n" ++
        "  lint   Check web.config files against the rules\n" ++
        "  rules  List the rules that would be applied\n" ++
        "  init   Create a new contract from the template\n"
  | _ =>
      "error: the arguments cannot be understood; try '" ++ Tool.name ++
        " --help'\n"

/-- Output is colored on a terminal, unless the environment says otherwise. -/
def wantsColor : IO Bool := do
  match ← IO.getEnv "CLICOLOR_FORCE", ← IO.getEnv "NO_COLOR" with
  | some force, _ => if force ≠ "0" then return true
  | none, some _ => return false
  | none, none => pure ()
  (← IO.getStdout).isTty

/-- Run a command on the files there are.  If there is no room for what it adds,
its outcome is that on a full disk. -/
def carryOut (command : Command) (color : Bool) : IO CommandOutcome := do
  let before ← take command
  let (outcome, after) := command.run before color
  try
    makeAdded before after
    return outcome
  catch _ => return (command.run { before with room := some 0 } color).1

def run (words : List String) : IO UInt32 := do
  match readArguments words with
  | .error stop =>
      if stop.exitCode = 0 then IO.print (usageText stop)
      else IO.eprint (usageText stop)
      return stop.exitCode.toUInt32
  | .ok invocation =>
      let outcome ← carryOut invocation.command (← wantsColor)
      IO.print outcome.output
      IO.eprint outcome.errors
      return outcome.exitCode.toUInt32

end WebConfigAudit.Program

def main (words : List String) : IO UInt32 :=
  WebConfigAudit.Program.run words
