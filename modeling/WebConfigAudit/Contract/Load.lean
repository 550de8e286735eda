import WebConfigAudit.Contract.Exclusion
import WebConfigAudit.Contract.Yaml
import WebConfigAudit.FileTree.Basic
/-!
The rules in effect: those of a contract file, or the built-in ones if there is
none.
-/

namespace WebConfigAudit

inductive LoadError where
  | unreadable (path : Path) (cause : FileError)
  | malformed (path : Path) (cause : Yaml.Failure)
  | invalid (cause : ContractError)
deriving DecidableEq, Repr

def LoadError.message : LoadError → String
  | .unreadable path cause =>
      "cannot parse contract " ++ path.text ++ ": " ++ cause.message
  | .malformed path cause =>
      "cannot parse contract " ++ path.text ++ ": " ++ cause.message
  | .invalid cause => cause.message

/-- The rules in effect, their contract, and what reports call their source. -/
structure LoadedRules where
  contract : Contract
  rules : RuleSet
  source : String
deriving DecidableEq, Repr

/-- The built-in rules, with a contract that says nothing. -/
def LoadedRules.builtin : LoadedRules :=
  ⟨{}, Builtin.rules, "built-in rules"⟩

def contractNames : List String := ["webcfg-guard.yaml", ".webcfg-guard.yaml"]

namespace FileTree

/-- The contract file of the current directory. -/
def discoverContract (tree : FileTree) : Option Path :=
  (contractNames.map Path.mk).find? tree.isPresent

def loadContract (tree : FileTree) (path : Path) :
    Except LoadError LoadedRules :=
  match tree.readText path with
  | .error cause => .error (.unreadable path cause)
  | .ok text =>
      match Contract.ofYaml text with
      | .error cause => .error (.malformed path cause)
      | .ok contract =>
          match contract.validate, contract.compile with
          | .error cause, _ => .error (.invalid cause)
          | _, .error cause => .error (.invalid cause)
          | .ok _, .ok rules => .ok ⟨contract, rules, path.text⟩

/-- The rules of the contract file that is asked for, or else of the one that is
found, or else the built-in ones. -/
def loadRules (tree : FileTree) (asked : Option Path) :
    Except LoadError LoadedRules :=
  match asked <|> tree.discoverContract with
  | some path => tree.loadContract path
  | none => .ok .builtin

end FileTree

end WebConfigAudit
