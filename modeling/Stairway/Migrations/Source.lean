import Stairway.Files.Clean
import Stairway.IoError
import Stairway.Migrations.FileName
import Stairway.Text.Quoted

/-!
# Sources of migrations

A source is a directory of scripts, at most one for each version and direction. `Source.scan` reads
a listing of the directory; only the names of regular files count, and two files for the same
version and direction make the directory useless. What a source says afterwards depends on which
files there are and not on the order in which they were listed.

A version is known if it has a script in either direction. `Source.plan` leads from one version to
another along the known versions between them; 0 stands for no version at all, before the first.
-/

namespace Stairway

/-- A script and where it is. -/
structure Script where
  version : Nat
  title : String
  direction : Direction
  path : String
  deriving DecidableEq, Repr

/-- One transition of a plan. -/
inductive Step where
  /-- Runs the up script of `version`; the schema is at `version` afterwards. -/
  | up (version : Nat)
  /-- Runs the down script of `version`; the schema is at `result` afterwards, `none` being no
  version. -/
  | down (version : Nat) (result : Option Nat)
  deriving DecidableEq, Repr

namespace Step

/-- The version whose script the step runs. -/
def version : Step → Nat
  | up v => v
  | down v _ => v

def direction : Step → Direction
  | up _ => .up
  | down _ _ => .down

/-- The version that is recorded once the step is done. -/
def target : Step → Option Nat
  | up v => some v
  | down _ result => result

end Step

/-- Why a text is no source of migrations. -/
inductive SourceFault where
  | notFileUrl (url : String)
  | emptyPath
  | noDirectory (path : String)
  | duplicate (direction : Direction) (version : Nat) (first second : String)
  | other (text : String)
  deriving DecidableEq, Repr

def SourceFault.text : SourceFault → String
  | notFileUrl url => "expected a file:// URL, got " ++ url
  | emptyPath => "empty migrations path"
  | noDirectory path => "migrations directory not found: " ++ path
  | duplicate d v first second =>
    "duplicate " ++ d.name ++ " migration for version " ++ toString v ++ ": " ++ first ++
      " and " ++ second
  | other text => text

inductive SourceError where
  | invalid (fault : SourceFault)
  | io (cause : IoError)
  | missing (version : Nat)
  deriving DecidableEq, Repr

def SourceError.message : SourceError → String
  | invalid fault => "Invalid migration source: " ++ fault.text
  | io cause => "IO error: " ++ cause.message
  | missing v => "No migration found for version " ++ toString v

/-- The scripts of one direction, by ascending version. -/
abbrev ScriptIndex := List Script

namespace ScriptIndex

def find? (index : ScriptIndex) (version : Nat) : Option Script :=
  List.find? (·.version == version) index

/-- Puts a script in its place; `none` for a version that is there already. -/
def insert? (s : Script) : ScriptIndex → Option ScriptIndex
  | [] => some [s]
  | t :: rest =>
    if s.version < t.version then some (s :: t :: rest)
    else if s.version = t.version then none
    else (insert? s rest).map (t :: ·)

end ScriptIndex

structure Source where
  root : String
  up : ScriptIndex := []
  down : ScriptIndex := []
  deriving DecidableEq, Repr

namespace Source

def index (s : Source) : Direction → ScriptIndex
  | .up => s.up
  | .down => s.down

def withIndex (s : Source) (index : ScriptIndex) : Direction → Source
  | .up => { s with up := index }
  | .down => { s with down := index }

/-! ## Reading a directory -/

def insert (s : Source) (script : Script) : Except SourceError Source :=
  let index := s.index script.direction
  match index.insert? script with
  | some index => .ok (s.withIndex index script.direction)
  | none =>
    let first := (index.find? script.version).elim "" (·.path)
    .error (.invalid (.duplicate script.direction script.version first script.path))

/-- An entry of a directory: its name, if that is text, and whether it is a regular file. -/
structure Entry where
  name : Option String
  isFile : Bool
  deriving DecidableEq, Repr

/-- The script that an entry stands for. -/
def scriptOf? (root : String) (e : Entry) : Option Script := do
  let name ← if e.isFile then e.name else none
  let parts ← Migrations.FileName.parse? name
  return ⟨parts.version, parts.title, parts.direction, Files.join root name⟩

/-- The source that a listing of the directory `root` makes. -/
def scan (root : String) (entries : List Entry) : Except SourceError Source :=
  (entries.filterMap (scriptOf? root)).foldlM insert { root }

/-! ## Known versions -/

/-- Puts a number in its place; one that is there already is not repeated. -/
def insertVersion (v : Nat) : List Nat → List Nat
  | [] => [v]
  | w :: rest =>
    if v < w then v :: w :: rest else if v = w then w :: rest else w :: insertVersion v rest

/-- All known versions, ascending. -/
def versions (s : Source) : List Nat :=
  (s.up ++ s.down).foldr (fun t vs => insertVersion t.version vs) []

def contains (s : Source) (v : Nat) : Bool := (s.up.find? v).isSome || (s.down.find? v).isSome

def first? (s : Source) : Option Nat := s.versions.head?

/-- The smallest known version above `v`. -/
def next? (s : Source) (v : Nat) : Option Nat := s.versions.find? (v < ·)

/-- The largest known version below `v`. -/
def prev? (s : Source) (v : Nat) : Option Nat := s.versions.reverse.find? (· < v)

/-- The script that moves `version` in a direction. -/
def script (s : Source) (d : Direction) (version : Nat) : Except SourceError Script :=
  match (s.index d).find? version with
  | some script => .ok script
  | none => .error (.missing version)

/-! ## Plans -/

/-- Whether a schema can be at `v`: 0 is no version and needs no script. -/
def reaches (s : Source) (v : Nat) : Bool := v = 0 || s.contains v

/-- The steps from `current` up to `target`. -/
def climb (s : Source) (current target : Nat) : List Step :=
  (s.versions.filter fun v => current < v && v ≤ target).map .up

/-- The steps from `current` down to `target`. -/
def descend (s : Source) (current target : Nat) : List Step :=
  (s.versions.reverse.filter fun v => target < v && v ≤ current).map fun v => .down v (s.prev? v)

/-- The steps that lead from `current` to `target`; `none` is a schema that was never migrated. -/
def plan (s : Source) (current : Option Nat) (target : Nat) : Except SourceError (List Step) :=
  let current := current.getD 0
  if !s.reaches target then .error (.missing target)
  else if !s.reaches current then .error (.missing current)
  else if current < target then .ok (s.climb current target)
  else .ok (s.descend current target)

/-! ## Shown to a person -/

def debugDirection : Direction → String
  | .up => "Up"
  | .down => "Down"

def debugScript (s : Script) : String :=
  Text.record "MigrationFile"
    [("version", toString s.version), ("title", Text.quoted s.title),
      ("direction", debugDirection s.direction), ("path", Text.quotedPath s.path)] false

def debug (s : Source) : String :=
  let index (i : ScriptIndex) :=
    Text.dictionary (i.map fun t => (toString t.version, debugScript t))
  Text.record "FileSource"
    [("root", Text.quotedPath s.root), ("up", index s.up), ("down", index s.down)] false

end Source

end Stairway
