import WebConfigAudit.Glob.Pattern
/-!
Which texts a glob pattern matches.  Patterns see a text as the bytes of its
encoding, so that a question mark and a class each take one byte, not one
character.
-/

namespace WebConfigAudit.Glob

def bytesOf (c : Char) : List UInt8 :=
  String.utf8EncodeChar c

def slash : UInt8 := 0x2f

/-- The ranges of bytes that a range of characters in a class stands for.  A
character of several bytes puts each of its bytes into the class, and the range
runs from the last byte of its first character to the first byte of its last. -/
def byteRanges (range : Char × Char) : List (UInt8 × UInt8) :=
  let (first, last) := range
  if first = last then (bytesOf first).map fun b => (b, b)
  else match (bytesOf first).reverse, bytesOf last with
    | b :: before, b' :: after =>
        (before.map fun x => (x, x)) ++ (b, b') :: after.map fun x => (x, x)
    | _, _ => []

def classHolds (negated : Bool) (ranges : List (Char × Char)) (b : UInt8) :
    Bool :=
  ((ranges.flatMap byteRanges).any fun range => range.1 ≤ b && b ≤ range.2) !=
    negated

def endings : List UInt8 → List (List UInt8)
  | [] => [[]]
  | b :: rest => (b :: rest) :: endings rest

/-- What may follow a slash somewhere in the text. -/
def afterSlashes : List UInt8 → List (List UInt8)
  | [] => []
  | b :: rest =>
      if b = slash then rest :: afterSlashes rest else afterSlashes rest

/-- What follows the given bytes, if the text starts with them. -/
def afterBytes (bytes text : List UInt8) : List (List UInt8) :=
  if bytes.isPrefixOf text then [text.drop bytes.length] else []

mutual

/-- Alternatives that are all empty demand nothing and are left out. -/
def Token.isVoid : Token → Bool
  | .alternatives branches => areVoidBranches branches
  | _ => false

def areVoid : List Token → Bool
  | [] => true
  | token :: tokens => token.isVoid && areVoid tokens

def areVoidBranches : List (List Token) → Bool
  | [] => true
  | tokens :: branches => areVoid tokens && areVoidBranches branches

end

mutual

/-- What may be left of a text after one part of a pattern. -/
def Token.rests : Token → List UInt8 → List (List UInt8)
  | .literal c, text => afterBytes (bytesOf c) text
  | .anyByte, text => match text with
      | [] => []
      | _ :: rest => [rest]
  | .anyBytes, text => endings text
  | .directoriesBefore, text =>
      text :: afterBytes [slash] text ++ afterSlashes text
  | .directoriesAfter, text => (afterBytes [slash] text).flatMap endings
  | .directoriesBetween, text =>
      (afterBytes [slash] text).flatMap fun rest => rest :: afterSlashes rest
  | .oneOf negated ranges, text => match text with
      | [] => []
      | b :: rest => if classHolds negated ranges b then [rest] else []
  | .alternatives branches, text =>
      if areVoidBranches branches then [text] else branchRests branches text

/-- What may be left of some texts after a list of parts, each rest once. -/
def tokenRests : List Token → List (List UInt8) → List (List UInt8)
  | [], texts => texts
  | token :: tokens, texts =>
      tokenRests tokens (texts.flatMap token.rests).eraseDups

/-- What may be left after one of the alternatives; empty ones do not count. -/
def branchRests : List (List Token) → List UInt8 → List (List UInt8)
  | [], _ => []
  | tokens :: branches, text =>
      (if areVoid tokens then [] else tokenRests tokens [text]) ++
        branchRests branches text

end

/-- Whether the pattern is a pair of stars and nothing else. -/
def isEverything : List Token → Bool
  | [.directoriesBefore] => true
  | _ => false

def isMatch (tokens : List Token) (text : String) : Bool :=
  isEverything tokens ||
    (tokenRests tokens [text.toList.flatMap bytesOf]).contains []

end WebConfigAudit.Glob
