import WebConfigAudit.Yaml.Token
/-!
Reading the text of scalars.
-/

namespace WebConfigAudit.Yaml

/-- Refuse what started there, for a problem here. -/
def refuse {α : Type} (context : String) (start : Mark) (p : Place)
    (problem : String) : Except Fault α :=
  .error (.within problem p.mark context start)

/-- The blanks and line ends between two parts of a scalar. -/
structure Gap where
  broken : Bool := false
  blanks : List Char := []
  first : List Char := []
  others : List Char := []
deriving Repr

/-- What a gap stands for.  Blanks stand for themselves, a line feed for a
space, and further line ends after it for themselves in its place. -/
def Gap.folded (gap : Gap) : List Char :=
  if gap.broken then
    if gap.first = ['\n'] then
      (if gap.others.isEmpty then [' '] else gap.others)
    else gap.first ++ gap.others
  else gap.blanks

/-- Read a gap; `tabFault` says whether a tab is refused at a place at the front
of a line.  `fuel` bounds the number of characters. -/
def readGap (tabFault : Place → Option Fault) :
    Nat → Gap → Place → Except Fault (Gap × Place)
  | 0, gap, p => .ok (gap, p)
  | fuel + 1, gap, p =>
      match p.rest with
      | [] => .ok (gap, p)
      | c :: _ =>
          if isBlank c then
            match if gap.broken ∧ c = '\t' then tabFault p else none with
            | some fault => .error fault
            | none =>
                let gap := if gap.broken then gap
                  else { gap with blanks := gap.blanks ++ [c] }
                readGap tabFault fuel gap (p.skip 1)
          else if isBreak c then
            let (text, after) := p.skipBreak
            let gap :=
              if gap.broken then { gap with others := gap.others ++ text }
              else { gap with broken := true, blanks := [], first := text }
            readGap tabFault fuel gap after
          else .ok (gap, p)

/-- Whether a plain scalar ends at a character, given the one after it. -/
def endsPlain (inFlow : Bool) (p : Place) : Bool :=
  match p.peek with
  | none => true
  | some c =>
      isBlank c || isBreak c || (c == ':' && p.isGapAt 1) ||
        (inFlow && isFlowIndicator c)

/-- The run of characters of a plain scalar; in a flow collection a colon may
not stand before an indicator.  `fuel` bounds their number. -/
def readPlainRun (inFlow : Bool) (start : Mark) :
    Nat → List Char → Place → Except Fault (List Char × Place)
  | 0, run, p => .ok (run, p)
  | fuel + 1, run, p =>
      match p.rest with
      | [] => .ok (run, p)
      | c :: _ =>
          if inFlow = true ∧ c = ':' ∧
              (p.peekAt 1).any (fun x => isFlowIndicator x || x == '?') =
                true then
            refuse "while scanning a plain scalar" start p
              "found unexpected ':'"
          else if endsPlain inFlow p then .ok (run, p)
          else readPlainRun inFlow start fuel (run ++ [c]) (p.skip 1)

/-- A scalar that was read: its text, the place after its last character, the
place where reading goes on, and whether that is on a later line. -/
structure ReadScalar where
  text : List Char
  stop : Mark
  next : Place
  broken : Bool

/-- Read the lines of a plain scalar that is indented by `indent` columns at
least; `fuel` bounds their number. -/
def readPlainLines (inFlow : Bool) (indent : Int) (start : Mark) :
    Nat → List Char → Gap → Mark → Place → Except Fault ReadScalar
  | 0, text, gap, stop, p => .ok ⟨text, stop, p, gap.broken⟩
  | fuel + 1, text, gap, stop, p =>
      if p.atDocumentBoundary || p.isAt '#' then .ok ⟨text, stop, p, gap.broken⟩
      else do
        let (run, p) ← readPlainRun inFlow start p.rest.length [] p
        let (text, gap, stop) :=
          if run.isEmpty then (text, gap, stop)
          else (text ++ gap.folded ++ run, {}, p.mark)
        if p.atBlank || p.atBreak then
          let tabFault (q : Place) : Option Fault :=
            if (q.mark.column : Int) < indent then
              some (.within "found a tab character that violates indentation"
                q.mark "while scanning a plain scalar" start)
            else none
          let (gap, p) ← readGap tabFault p.rest.length {} p
          if !inFlow && decide ((p.mark.column : Int) < indent) then
            return ⟨text, stop, p, gap.broken⟩
          else readPlainLines inFlow indent start fuel text gap stop p
        else return ⟨text, stop, p, gap.broken⟩

def readPlain (inFlow : Bool) (indent : Int) (p : Place) :
    Except Fault ReadScalar :=
  readPlainLines inFlow indent p.mark (p.rest.length + 1) [] {} p.mark p

def simpleEscape? (c : Char) : Option Char :=
  match c with
  | '0' => some '\x00'
  | 'a' => some '\x07'
  | 'b' => some '\x08'
  | 't' => some '\t'
  | '\t' => some '\t'
  | 'n' => some '\n'
  | 'v' => some '\x0b'
  | 'f' => some '\x0c'
  | 'r' => some '\r'
  | 'e' => some '\x1b'
  | ' ' => some ' '
  | '"' => some '"'
  | '/' => some '/'
  | '\\' => some '\\'
  | 'N' => some '\u0085'
  | '_' => some '\u00a0'
  | 'L' => some '\u2028'
  | 'P' => some '\u2029'
  | _ => none

/-- The number of digits that follow the letter of a numeric escape. -/
def escapeLength? (c : Char) : Option Nat :=
  match c with
  | 'x' => some 2
  | 'u' => some 4
  | 'U' => some 8
  | _ => none

def readEscape (start : Mark) (p : Place) : Except Fault (Char × Place) :=
  let context := "while parsing a quoted scalar"
  match p.peekAt 1 with
  | none => refuse context start p "found unknown escape character"
  | some letter =>
      match simpleEscape? letter with
      | some c => .ok (c, p.skip 2)
      | none =>
          match escapeLength? letter with
          | none => refuse context start p "found unknown escape character"
          | some length =>
              let p := p.skip 2
              let digits := p.rest.take length
              if digits.length = length ∧ digits.all isHexDigit = true then
                let value := digits.foldl (fun n d => 16 * n + hexValue d) 0
                if value.isValidChar then .ok (Char.ofNat value, p.skip length)
                else refuse context start p
                  "found invalid Unicode character escape code"
              else refuse context start p
                "did not find expected hexdecimal number"

/-- Read the characters of a quoted scalar up to its closing quote or a gap, and
tell whether an escaped line end came last.  `fuel` bounds their number. -/
def readQuotedRun (single : Bool) (start : Mark) :
    Nat → List Char → Place → Except Fault (List Char × Bool × Place)
  | 0, run, p => .ok (run, false, p)
  | fuel + 1, run, p =>
      match p.rest with
      | [] => .ok (run, false, p)
      | c :: _ =>
          if isBlank c || isBreak c then .ok (run, false, p)
          else if single = true ∧ c = '\'' ∧ p.peekAt 1 = some '\'' then
            readQuotedRun single start fuel (run ++ ['\'']) (p.skip 2)
          else if c = (if single then '\'' else '"') then .ok (run, false, p)
          else if single = false ∧ c = '\\' then
            if (p.peekAt 1).any isBreak then
              .ok (run, true, (p.skip 1).skipBreak.2)
            else
              match readEscape start p with
              | .ok (x, p) => readQuotedRun single start fuel (run ++ [x]) p
              | .error e => .error e
          else readQuotedRun single start fuel (run ++ [c]) (p.skip 1)

/-- Read the lines of a quoted scalar after its opening quote. -/
def readQuotedLines (single : Bool) (start : Mark) :
    Nat → List Char → Place → Except Fault (List Char × Place)
  | 0, text, p => .ok (text, p)
  | fuel + 1, text, p => do
      let context := "while scanning a quoted scalar"
      if p.atDocumentBoundary then
        refuse context start p "found unexpected document indicator"
      else if p.atEnd then
        refuse context start p "found unexpected end of stream"
      else
        let (run, escapedBreak, p) ← readQuotedRun single start
          p.rest.length [] p
        let text := text ++ run
        if p.isAt (if single then '\'' else '"') then return (text, p.skip 1)
        else
          let (gap, p) ← readGap (fun _ => none) p.rest.length
            { broken := escapedBreak } p
          readQuotedLines single start fuel (text ++ gap.folded) p

def readQuoted (single : Bool) (p : Place) : Except Fault (List Char × Place) :=
  readQuotedLines single p.mark (p.rest.length + 1) [] (p.skip 1)

/-- What becomes of the line ends at the end of a block scalar. -/
inductive Chomping where
  | strip
  | clip
  | keep
deriving DecidableEq, Repr

def chompingOf? (c : Option Char) : Option Chomping :=
  match c with
  | some '+' => some .keep
  | some '-' => some .strip
  | _ => none

/-- The indentation that a digit asks for; zero is refused. -/
def readIndicator (start : Mark) (p : Place) : Except Fault (Nat × Place) :=
  match p.peek with
  | some c =>
      if c = '0' then
        refuse "while scanning a block scalar" start p
          "found an indentation indicator equal to 0"
      else if Text.isDigit c then .ok (hexValue c, p.skip 1)
      else .ok (0, p)
  | none => .ok (0, p)

/-- Read the sign and the digit at the head of a block scalar, in either order;
zero stands for no digit. -/
def readBlockHeader (start : Mark) (p : Place) :
    Except Fault (Chomping × Nat × Place) := do
  match chompingOf? p.peek with
  | some chomping =>
      let (indent, p) ← readIndicator start (p.skip 1)
      return (chomping, indent, p)
  | none =>
      let (indent, p) ← readIndicator start p
      if indent = 0 then return (.clip, 0, p)
      else match chompingOf? p.peek with
        | some chomping => return (chomping, indent, p.skip 1)
        | none => return (.clip, indent, p)

/-- Read empty lines and the indentation of the next line.  An indentation of
zero is not known yet, so all spaces count and the widest line is noted; `fuel`
bounds the number of lines. -/
def readEmptyLines (start : Mark) (indent : Nat) :
    Nat → List Char → Nat → Place → Except Fault (List Char × Nat × Place)
  | 0, breaks, widest, p => .ok (breaks, widest, p)
  | fuel + 1, breaks, widest, p =>
      let spaces := (p.rest.takeWhile (· == ' ')).length
      let p := p.skip
        (if indent = 0 then spaces else min spaces (indent - p.mark.column))
      let widest := max widest p.mark.column
      if (indent = 0 ∨ p.mark.column < indent) ∧ p.isAt '\t' = true then
        refuse "while scanning a block scalar" start p
          "found a tab character where an indentation space is expected"
      else if p.atBreak then
        let (text, after) := p.skipBreak
        readEmptyLines start indent fuel (breaks ++ text) widest after
      else .ok (breaks, widest, p)

/-- The lines of a block scalar under way: its text, the line end after its last
line, the empty lines after that, and whether the last line started with a
blank. -/
structure BlockText where
  text : List Char := []
  lastBreak : List Char := []
  emptyLines : List Char := []
  blankLine : Bool := false

/-- Take a line; a folded scalar joins lines that start with no blank. -/
def BlockText.take (block : BlockText) (folded startsBlank : Bool)
    (line lineEnd : List Char) : BlockText :=
  let joint :=
    if folded = true ∧ block.lastBreak = ['\n'] ∧ block.blankLine = false ∧
      startsBlank = false then
      (if block.emptyLines.isEmpty then [' '] else [])
    else block.lastBreak
  { text := block.text ++ joint ++ block.emptyLines ++ line
    lastBreak := lineEnd
    emptyLines := []
    blankLine := startsBlank }

/-- Read the lines of a block scalar; `fuel` bounds their number. -/
def readBlockLines (folded : Bool) (start : Mark) (indent : Nat) :
    Nat → BlockText → Place → Except Fault (BlockText × Place)
  | 0, block, p => .ok (block, p)
  | fuel + 1, block, p =>
      if p.mark.column = indent ∧ p.atEnd = false then do
        let line := p.rest.takeWhile fun c => !isBreak c
        let (lineEnd, after) := (p.skip line.length).skipBreak
        let block := block.take folded p.atBlank line lineEnd
        let (breaks, _, next) ← readEmptyLines start indent
          (after.rest.length + 1) [] 0 after
        readBlockLines folded start indent fuel { block with
          emptyLines := breaks } next
      else .ok (block, p)

/-- The text of a block scalar, with its end as asked for. -/
def BlockText.chomp (block : BlockText) : Chomping → List Char
  | .strip => block.text
  | .clip => block.text ++ block.lastBreak
  | .keep => block.text ++ block.lastBreak ++ block.emptyLines

/-- Read a block scalar inside a block of the given indentation. -/
def readBlock (folded : Bool) (outer : Int) (p : Place) :
    Except Fault (List Char × Place) := do
  let start := p.mark
  let (chomping, asked, p) ← readBlockHeader start (p.skip 1)
  let p := p.skipToLineEnd
  if p.atLineEnd then
    let p := p.skipBreak.2
    let fixed := if asked = 0 then 0 else (max outer 0).toNat + asked
    let (breaks, widest, p) ← readEmptyLines start fixed
      (p.rest.length + 1) [] 0 p
    let indent := if fixed = 0 then max (max widest (outer + 1).toNat) 1
      else fixed
    let (block, p) ←
      readBlockLines folded start indent (p.rest.length + 1)
      { emptyLines := breaks } p
    return (block.chomp chomping, p)
  else
    refuse "while scanning a block scalar" start p
      "did not find expected comment or line break"

end WebConfigAudit.Yaml
