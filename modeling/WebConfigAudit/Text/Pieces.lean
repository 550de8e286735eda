/-!
Cutting a text: where another text occurs in it, at the ends of its lines, and
after a number of bytes.  A line ends at a line feed, and a carriage return
before the line feed belongs to the line end; after the last line feed there is
one more line unless the text stops there.
-/

namespace WebConfigAudit.Text

/-- The characters before the first occurrence of a text, if it occurs. -/
def before? (wanted : List Char) : List Char → Option (List Char)
  | [] => if wanted.isEmpty then some [] else none
  | c :: rest =>
      if wanted.isPrefixOf (c :: rest) then some []
      else (before? wanted rest).map (c :: ·)

def occurs (wanted cs : List Char) : Bool :=
  (before? wanted cs).isSome

/-- The characters after a text, if they start with it. -/
def after? (start cs : List Char) : Option (List Char) :=
  if start.isPrefixOf cs then some (cs.drop start.length) else none

/-- Cut at every line feed; `line` is the current line, backwards. -/
def splitLines (line : List Char) : List Char → List (List Char)
  | [] => if line.isEmpty then [] else [line.reverse]
  | c :: rest =>
      if c = '\n' then
        (match line with
          | '\r' :: front => front
          | front => front).reverse :: splitLines [] rest
      else splitLines (c :: line) rest

def linesOf (cs : List Char) : List (List Char) :=
  splitLines [] cs

def byteCount (cs : List Char) : Nat :=
  (String.ofList cs).utf8ByteSize

/-- Cut a text after so many bytes, unless that is within a character. -/
def splitAtByte? : Nat → List Char → Option (List Char × List Char)
  | 0, cs => some ([], cs)
  | _ + 1, [] => none
  | n + 1, c :: cs =>
      if byteCount [c] ≤ n + 1 then
        (splitAtByte? (n + 1 - byteCount [c]) cs).map fun parts =>
          (c :: parts.1, parts.2)
      else none

end WebConfigAudit.Text
