import WebConfigAudit.Text.CharClass
/-!
The kinds of configuration element that rules speak of.
-/

namespace WebConfigAudit

inductive Tag where
  | sessionState
  | forms
  | security
  | allow
  | compilation
  | httpCookies
  | customErrors
  | trace
  | httpRuntime
deriving DecidableEq, Repr

/-- Every kind, in the order in which sets of kinds are listed. -/
def Tag.all : List Tag :=
  [.sessionState, .forms, .security, .allow, .compilation, .httpCookies,
   .customErrors, .trace, .httpRuntime]

/-- The name by which contracts and reports call the kind. -/
def Tag.typeName : Tag → String
  | .sessionState => "sessionState"
  | .forms => "FormsTagInConfig"
  | .security => "security"
  | .allow => "AllowElement"
  | .compilation => "compilation"
  | .httpCookies => "httpCookies"
  | .customErrors => "customErrors"
  | .trace => "trace"
  | .httpRuntime => "httpRuntime"

def Tag.elementName : Tag → String
  | .forms => "forms"
  | .allow => "allow"
  | tag => tag.typeName

/-- The kind whose element has this name, in any case. -/
def Tag.ofElementName? (name : String) : Option Tag :=
  Tag.all.find? fun tag => Text.sameLetters tag.elementName name

/-- The kind with this name in either form, in any case. -/
def Tag.ofName? (name : String) : Option Tag :=
  let name := Text.trim name
  Tag.all.find? fun tag =>
    Text.sameLetters tag.typeName name || Text.sameLetters tag.elementName name

/-- The kinds in a list, each once and in the order of `Tag.all`. -/
def Tag.sorted (tags : List Tag) : List Tag :=
  Tag.all.filter fun tag => tags.contains tag

theorem Tag.mem_all (tag : Tag) : tag ∈ Tag.all := by
  cases tag <;> decide

theorem Tag.mem_sorted {tag : Tag} {tags : List Tag} :
    tag ∈ Tag.sorted tags ↔ tag ∈ tags := by
  simp [Tag.sorted, Tag.mem_all]

end WebConfigAudit
