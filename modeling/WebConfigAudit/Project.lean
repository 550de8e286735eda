import WebConfigAudit.FileTree.Path
/-!
Which files belong to a project: the configuration a lint looks at and the
project file that owns it.
-/

namespace WebConfigAudit

/-- The file name of the configuration, in any case. -/
def targetName : String := "web.config"

def projectExtensions : List String := ["csproj", "vbproj", "fsproj"]

def Path.isTargetName (path : Path) : Bool :=
  path.fileName?.any fun name => Text.sameLetters name targetName

def Path.isProjectFile (path : Path) : Bool :=
  path.extension?.any fun ext => projectExtensions.any fun known =>
    Text.sameLetters known ext

/-- A configuration together with the project file that owns it. -/
structure Target where
  config : Path
  project : Path
deriving DecidableEq, Repr

end WebConfigAudit
