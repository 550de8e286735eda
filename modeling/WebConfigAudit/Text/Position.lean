/-!
Places in a text.  Lines and columns count from one, columns count characters,
and only a line feed ends a line.
-/

namespace WebConfigAudit.Text

structure Position where
  line : Nat
  column : Nat
deriving DecidableEq, Repr, Ord

def Position.start : Position := ⟨1, 1⟩

/-- The place after one more character. -/
def Position.after (p : Position) (c : Char) : Position :=
  if c = '\n' then ⟨p.line + 1, 1⟩ else ⟨p.line, p.column + 1⟩

/-- The place after some more characters. -/
def Position.advance (p : Position) (cs : List Char) : Position :=
  cs.foldl Position.after p

/-- Earlier lines come first, and on one line smaller columns. -/
def Position.compare (p q : Position) : Ordering :=
  (Ord.compare p.line q.line).then (Ord.compare p.column q.column)

@[simp] theorem Position.advance_nil (p : Position) : p.advance [] = p := rfl

@[simp] theorem Position.advance_cons (p : Position) (c : Char)
    (cs : List Char) :
    p.advance (c :: cs) = (p.after c).advance cs := rfl

@[simp] theorem Position.advance_append (p : Position) (cs ds : List Char) :
    p.advance (cs ++ ds) = (p.advance cs).advance ds := by
  simp [Position.advance]

/-- The characters still to be read, and the place of the first of them. -/
structure Cursor where
  rest : List Char
  pos : Position
deriving Repr, DecidableEq

def Cursor.ofText (s : String) : Cursor := ⟨s.toList, Position.start⟩

/-- Pass over one character; at the end of the text nothing happens. -/
def Cursor.next (c : Cursor) : Cursor :=
  match c.rest with
  | [] => c
  | x :: rest => ⟨rest, c.pos.after x⟩

/-- Pass over `n` characters, or to the end of the text. -/
def Cursor.drop (n : Nat) (c : Cursor) : Cursor :=
  ⟨c.rest.drop n, c.pos.advance (c.rest.take n)⟩

/-- The run of characters in a class, at the front. -/
def Cursor.run (p : Char → Bool) (c : Cursor) : List Char :=
  c.rest.takeWhile p

def Cursor.skip (p : Char → Bool) (c : Cursor) : Cursor :=
  ⟨c.rest.dropWhile p, c.pos.advance (c.run p)⟩

/-- Pass over the given characters, if they come next. -/
def Cursor.expect? (text : List Char) (c : Cursor) : Option Cursor :=
  if text.isPrefixOf c.rest then some (c.drop text.length) else none

end WebConfigAudit.Text
