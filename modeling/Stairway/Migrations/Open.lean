import Stairway.Files.Tree
import Stairway.Migrations.Source

/-!
# Opening a source

A source is named by a `file://` URL; what follows is a path, taken as it stands. The directory is
read once, when the source is opened, and a script each time it is run.
-/

namespace Stairway.Source

def scheme : List Char := "file://".toList

/-- The directory that a URL names. -/
def rootOf (url : String) : Except SourceFault String :=
  if !scheme.isPrefixOf url.toList then .error (.notFileUrl url)
  else
    let path := url.toList.drop scheme.length
    if path.isEmpty then .error .emptyPath else .ok (String.ofList path)

/-- An entry of a directory as scanning sees it. -/
def entryOf (e : Files.Name × Files.Entry) : Entry :=
  ⟨(Text.Utf8.decode? e.1).map String.ofList, match e.2 with
    | .file _ => true
    | _ => false⟩

/-- The source in a directory of a file tree. -/
def fromDirectory (t : Files.Tree) (root : String) : Except SourceError Source :=
  if !t.isDirectory root then .error (.invalid (.noDirectory root))
  else
    match t.list root with
    | .ok entries => scan root (entries.map entryOf)
    | .error cause => .error (.io cause)

/-- The source that a URL names in a file tree. -/
def openUrl (t : Files.Tree) (url : String) : Except SourceError Source :=
  match rootOf url with
  | .ok root => fromDirectory t root
  | .error fault => .error (.invalid fault)

/-- The text of the script that moves `version` in a direction. -/
def readScript (s : Source) (t : Files.Tree) (d : Direction) (version : Nat) :
    Except SourceError String := do
  let script ← s.script d version
  (t.readText script.path).mapError .io

end Stairway.Source
