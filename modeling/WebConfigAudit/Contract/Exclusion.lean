import WebConfigAudit.Contract.Compile
import WebConfigAudit.Glob.Match
/-!
The paths that a contract leaves out, and the check of a contract, which looks
at the patterns of these paths before it looks at the rules.
-/

namespace WebConfigAudit

def patternMatches (pattern path : String) : Bool :=
  match Glob.parse pattern with
  | .ok tokens => Glob.isMatch tokens path
  | .error _ => false

/-- Whether one of the contract's patterns matches the path.  A pattern that
cannot be read matches nothing. -/
def Contract.excludes (contract : Contract) (path : String) : Bool :=
  contract.excludedPaths.any fun pattern => patternMatches pattern path

/-- The first pattern that cannot be read. -/
def Contract.globError? (contract : Contract) : Option ContractError :=
  contract.excludedPaths.findSome? fun pattern =>
    match Glob.parse pattern with
    | .ok _ => none
    | .error reason => some (.invalidGlob pattern reason)

/-- Check the contract: its patterns first and then its rules. -/
def Contract.validate (contract : Contract) : Except ContractError Unit :=
  match contract.globError? with
  | some e => .error e
  | none => contract.compile.map fun _ => ()

end WebConfigAudit
