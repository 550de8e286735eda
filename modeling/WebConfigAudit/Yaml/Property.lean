import WebConfigAudit.Yaml.Scalar
/-!
Reading anchors, tags and directives.
-/

namespace WebConfigAudit.Yaml

/-- Pass over `n` octets of an escaped character after its first one. -/
def readTrailingOctets (context : String) (start : Mark) :
    Nat → List Char → Place → Except Fault (List Char × Place)
  | 0, octets, p => .ok (octets, p)
  | n + 1, octets, p =>
      match p.rest with
      | '%' :: a :: b :: _ =>
          if isHexDigit a && isHexDigit b then
            let octet := 16 * hexValue a + hexValue b
            if octet / 64 = 2 then
              readTrailingOctets context start n (octets ++ [Char.ofNat octet])
                (p.skip 3)
            else refuse context start p
              "found an incorrect trailing UTF-8 octet"
          else refuse context start p "did not find URI escaped octet"
      | _ => refuse context start p "did not find URI escaped octet"

/-- The number of octets of a character, told by its first octet. -/
def octetCount? (octet : Nat) : Option Nat :=
  if octet < 0x80 then some 1
  else if octet / 32 = 6 then some 2
  else if octet / 16 = 14 then some 3
  else if octet / 8 = 30 then some 4
  else none

/-- Read one escaped character; each octet becomes a character. -/
def readUriEscape (context : String) (start : Mark) (p : Place) :
    Except Fault (List Char × Place) :=
  match p.rest with
  | '%' :: a :: b :: _ =>
      if isHexDigit a && isHexDigit b then
        let octet := 16 * hexValue a + hexValue b
        match octetCount? octet with
        | some count =>
            readTrailingOctets context start (count - 1) [Char.ofNat octet]
              (p.skip 3)
        | none =>
            refuse context start p "found an incorrect leading UTF-8 octet"
      else refuse context start p "did not find URI escaped octet"
  | _ => refuse context start p "did not find URI escaped octet"

/-- The characters of a tag; brackets and commas only where it is closed off. -/
def isUriChar (closed : Bool) (c : Char) : Bool :=
  isWordChar c || ";/?:@&=+$.%!~*'()".toList.contains c ||
    (closed && (c == ',' || c == '[' || c == ']'))

/-- Read the characters of a tag; `fuel` bounds their number. -/
def readUriFrom (closed : Bool) (context : String) (start : Mark) :
    Nat → List Char → Place → Except Fault (List Char × Place)
  | 0, uri, p => .ok (uri, p)
  | fuel + 1, uri, p =>
      match p.peek with
      | none => .ok (uri, p)
      | some c =>
          if isUriChar closed c then
            if c = '%' then
              match readUriEscape context start p with
              | .ok (octets, p) =>
                  readUriFrom closed context start fuel (uri ++ octets) p
              | .error e => .error e
            else readUriFrom closed context start fuel (uri ++ [c]) (p.skip 1)
          else .ok (uri, p)

/-- Read a tag or a part of one after the characters already read, without the
mark they start with.  There must be some character in all. -/
def readUri (closed directive : Bool) (head : List Char) (start : Mark)
    (p : Place) :
    Except Fault (List Char × Place) := do
  let context := if directive then "while parsing a %TAG directive"
    else "while parsing a tag"
  let (uri, p) ← readUriFrom closed context start p.rest.length head.tail p
  if head.isEmpty ∧ uri.isEmpty then
    refuse context start p "did not find expected tag URI"
  else return (uri, p)

/-- Read a handle: a mark, or a word between two marks.  In a tag the second
mark may be missing. -/
def readHandle (directive : Bool) (start : Mark) (p : Place) :
    Except Fault (List Char × Place) :=
  if p.isAt '!' then
    let word := (p.skip 1).rest.takeWhile isWordChar
    let after := p.skip (1 + word.length)
    if after.isAt '!' then .ok ('!' :: word ++ ['!'], after.skip 1)
    else if directive = true ∧ word ≠ [] then
      refuse "while parsing a tag directive" start after
        "did not find expected '!'"
    else .ok ('!' :: word, after)
  else
    refuse (if directive then "while scanning a tag directive"
      else "while scanning a tag") start p
      "did not find expected '!'"

/-- Whether a handle is a word between two marks, or two marks. -/
def isFullHandle (handle : List Char) : Bool :=
  handle.length > 1 && handle.getLast? == some '!'

/-- Read the handle and the rest of a tag that is not closed off by itself. -/
def readShortTag (start : Mark) (p : Place) :
    Except Fault (List Char × List Char × Place) := do
  let (handle, p) ← readHandle false start p
  if isFullHandle handle then
    let (suffix, p) ← readUri false false [] start p
    return (handle, suffix, p)
  else
    let (suffix, p) ← readUri false false handle start p
    if suffix.isEmpty then return ([], ['!'], p) else return (['!'], suffix, p)

def readTag (inFlow : Bool) (p : Place) :
    Except Fault (List Char × List Char × Place) := do
  let start := p.mark
  let context := "while scanning a tag"
  let (handle, suffix, p) ←
    if p.peekAt 1 = some '<' then do
      let (suffix, p) ← readUri true false [] start (p.skip 2)
      if p.isAt '>' then pure ([], suffix, p.skip 1)
      else refuse context start p "did not find the expected '>'"
    else readShortTag start p
  if (inFlow && p.isAt ',') || p.isGapAt 0 then return (handle, suffix, p)
  else refuse context start p "did not find expected whitespace or line break"

def readAnchor (isAlias : Bool) (p : Place) :
    Except Fault (List Char × Place) :=
  let name := (p.skip 1).rest.takeWhile isWordChar
  let after := p.skip (1 + name.length)
  let ends := after.isGapAt 0 || after.peek.any "?:,]\x7d%@`".toList.contains
  if name ≠ [] ∧ ends = true then .ok (name, after)
  else
    refuse (if isAlias then "while scanning an alias"
      else "while scanning an anchor") p.mark after
      "did not find expected alphabetic or numeric character"

def readVersionNumber (start : Mark) (p : Place) : Except Fault (Nat × Place) :=
  let context := "while scanning a %YAML directive"
  let digits := p.rest.takeWhile Text.isDigit
  if digits.length > 9 then
    refuse context start (p.skip 9) "found extremely long version number"
  else if digits.isEmpty then
    refuse context start p "did not find expected version number"
  else .ok (digits.foldl (fun n d => 10 * n + hexValue d) 0,
    p.skip digits.length)

def readVersion (start : Mark) (p : Place) :
    Except Fault (TokenKind × Place) := do
  let (major, p) ← readVersionNumber start (p.skipWhile isBlank)
  if p.isAt '.' then
    let (minor, p) ← readVersionNumber start (p.skip 1)
    return (.version major minor, p)
  else
    refuse "while scanning a %YAML directive" start p
      "did not find expected digit or '.' character"

def readTagDirective (start : Mark) (p : Place) :
    Except Fault (TokenKind × Place) := do
  let context := "while scanning a %TAG directive"
  let (handle, p) ← readHandle true start (p.skipWhile isBlank)
  if p.atBlank then
    let (label, p) ← readUri true true [] start (p.skipWhile isBlank)
    if p.isGapAt 0 then return (.tagDirective handle label, p)
    else refuse context start p "did not find expected whitespace or line break"
  else refuse context start p "did not find expected whitespace"

/-- Read a directive, at its mark, with the end of its line. -/
def readDirective (p : Place) : Except Fault (Token × Place) := do
  let start := p.mark
  let context := "while scanning a directive"
  let name := (p.skip 1).rest.takeWhile isWordChar
  let p := p.skip (1 + name.length)
  if name.isEmpty then
    refuse context start p "could not find expected directive name"
  else if !p.isGapAt 0 then
    refuse context start p "found unexpected non-alphabetical character"
  else
    let (kind, p) ←
      if name = "YAML".toList then readVersion start p
      else if name = "TAG".toList then readTagDirective start p
      else refuse context start p "found unknown directive name"
    let stop := p.mark
    let p := p.skipToLineEnd
    if p.atLineEnd then return (⟨kind, start, stop⟩, p.skipBreak.2)
    else refuse context start p "did not find expected comment or line break"

end WebConfigAudit.Yaml
