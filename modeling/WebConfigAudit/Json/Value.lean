/-!
Structured values in the JSON format.
-/

namespace WebConfigAudit

/-- A JSON value.  Natural numbers are kept as such; any other number is kept as
its numeral, since nothing here calculates with it.  The members of an object
keep their order. -/
inductive Json where
  | null
  | bool (value : Bool)
  | natural (value : Nat)
  | numeral (text : String)
  | string (text : String)
  | array (items : List Json)
  | object (members : List (String × Json))
deriving Repr, BEq

namespace Json

instance : Inhabited Json := ⟨.null⟩

/-- A member of an object; of several with one name, the last counts. -/
def get? (key : String) : Json → Option Json
  | .object members =>
      (members.reverse.find? fun member => member.1 == key).map Prod.snd
  | _ => none

def string? : Json → Option String
  | .string text => some text
  | _ => none

def natural? : Json → Option Nat
  | .natural value => some value
  | _ => none

def bool? : Json → Option Bool
  | .bool value => some value
  | _ => none

def array? : Json → Option (List Json)
  | .array items => some items
  | _ => none

end Json

end WebConfigAudit
