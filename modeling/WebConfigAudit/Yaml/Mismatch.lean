import WebConfigAudit.Text.Quoted
import WebConfigAudit.Yaml.Event
import WebConfigAudit.Yaml.Plain
/-!
How a value can differ from what is wanted in its place, where that place is,
and why a document cannot be decoded.
-/

namespace WebConfigAudit.Yaml

/-- A step from a value to one inside it: an entry by its key, an item by its
index, or an entry whose key has no name. -/
inductive Step where
  | entry (key : String)
  | item (index : Nat)
  | unnamed
deriving DecidableEq, Repr

/-- The steps from the whole document to a value, the last one first. -/
abbrev Path := List Step

def Path.text : Path → String
  | [] => "."
  | .entry key :: [] => key
  | .entry key :: parent => Path.text parent ++ "." ++ key
  | .item index :: parent =>
      Path.text parent ++ "[" ++ Text.decimal index ++ "]"
  | .unnamed :: [] => "?"
  | .unnamed :: parent => Path.text parent ++ ".?"

/-- The sorts of value that messages tell apart. -/
inductive Found where
  | plain (value : PlainValue) (text : String)
  | sequence
  | mapping
deriving DecidableEq, Repr

/-- The integers of sixty-four bits, signed or not. -/
def isNarrow (n : Int) : Bool :=
  -0x8000000000000000 ≤ n && n < 0x10000000000000000

def Found.text : Found → String
  | .plain .null _ => "unit value"
  | .plain (.bool true) _ => "boolean `true`"
  | .plain (.bool false) _ => "boolean `false`"
  | .plain (.integer n) _ =>
      let numeral := (if n < 0 then "-" else "") ++ Text.decimal n.natAbs
      "integer `" ++ numeral ++ "`" ++
        if isNarrow n then "" else if n < 0 then " as i128" else " as u128"
  | .plain (.floating spelling) _ => "floating point `" ++ spelling ++ "`"
  | .plain .text text => "string " ++ Text.quote text
  | .sequence => "sequence"
  | .mapping => "map"

inductive Mismatch where
  | sort (found : Found) (wanted : String)
  | spelling (text : String) (wanted : String)
  | missingField (name : String)
  | repeatedField (name : String)
  | unknownName (name : String) (known : List String)
  | unknownTag (name : String)
  | taggedValue
  | noConfiguredValue
deriving DecidableEq, Repr

def listNames (names : List String) : String :=
  ", ".intercalate (names.map fun name => "`" ++ name ++ "`")

def Mismatch.text : Mismatch → String
  | .sort found wanted =>
      "invalid type: " ++ found.text ++ ", expected " ++ wanted
  | .spelling text wanted =>
      "invalid value: string " ++ Text.quote text ++ ", expected " ++ wanted
  | .missingField name => "missing field `" ++ name ++ "`"
  | .repeatedField name => "duplicate field `" ++ name ++ "`"
  | .unknownName name known =>
      "unknown variant `" ++ name ++ "`, expected one of " ++ listNames known
  | .unknownTag name => "unknown element tag " ++ Text.quote name
  | .taggedValue =>
      "untagged and internally tagged enums do not support enum input"
  | .noConfiguredValue =>
      "data did not match any variant of untagged enum ValueSpec"

/-- Why a document cannot be decoded.  A mismatch has a place once it is known
in which value it arose. -/
inductive Failure where
  | syntaxFault (fault : Fault)
  | ended
  | tooDeep (mark : Mark)
  | tooManyAliases
  | severalDocuments
  | mismatch (mismatch : Mismatch) (place : Option (Mark × Path))
deriving DecidableEq, Repr

def Failure.message : Failure → String
  | .syntaxFault fault => fault.message
  | .ended => "EOF while parsing a value"
  | .tooDeep mark => "recursion limit exceeded" ++ mark.suffix
  | .tooManyAliases => "repetition limit exceeded"
  | .severalDocuments =>
      "deserializing from YAML containing more than one document is not supported"
  | .mismatch m none => m.text
  | .mismatch m (some (mark, path)) =>
      (if path.isEmpty then "" else path.text ++ ": ") ++ m.text ++ mark.suffix

end WebConfigAudit.Yaml
