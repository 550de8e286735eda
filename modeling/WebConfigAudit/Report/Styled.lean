import WebConfigAudit.Text.Decimal
/-!
Text with terminal styles.
-/

namespace WebConfigAudit

inductive Style where
  | plain
  | title
  | bold
  | dimmed
  | red
  | green
  | yellow
  | blue
deriving DecidableEq, Repr

/-- The numbers that switch a style on; none for plain text. -/
def Style.code : Style → List Char
  | .plain => []
  | .title => ['1', ';', '3', '6']
  | .bold => ['1']
  | .dimmed => ['2']
  | .red => ['3', '1']
  | .green => ['3', '2']
  | .yellow => ['3', '3']
  | .blue => ['3', '4']

/-- A piece of styled text, filled up with blanks to a width. -/
structure Piece where
  style : Style := .plain
  text : String
  width : Nat := 0
deriving Repr

def Style.on (style : Style) : List Char :=
  '\x1b' :: '[' :: style.code ++ ['m']

def styleOff : List Char :=
  ['\x1b', '[', '0', 'm']

/-- Switch the style on again after every sequence in a text that switches it
off; `skip` counts the characters of such a sequence that are still to be
copied. -/
def resume (style : Style) : Nat → List Char → List Char
  | _, [] => []
  | 0, c :: rest =>
      if styleOff.isPrefixOf (c :: rest) then
        c :: resume style (styleOff.length - 1) rest
      else c :: resume style 0 rest
  | 1, c :: rest => c :: style.on ++ resume style 0 rest
  | skip + 2, c :: rest => c :: resume style (skip + 1) rest

def padTo (width : Nat) (cs : List Char) : List Char :=
  cs ++ List.replicate (width - cs.length) ' '

def Piece.render (color : Bool) (piece : Piece) : List Char :=
  let cs := piece.text.toList
  if color = true ∧ piece.style ≠ .plain then
    piece.style.on ++ padTo piece.width (resume piece.style 0 cs) ++ styleOff
  else padTo piece.width cs

def renderPieces (color : Bool) (pieces : List Piece) : String :=
  String.ofList (pieces.flatMap (Piece.render color))

end WebConfigAudit
