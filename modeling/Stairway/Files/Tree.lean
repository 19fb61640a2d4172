import Stairway.Files.Clean
import Stairway.IoError
import Stairway.Text.Utf8

/-!
# File trees

A tree is what a program sees of a file system: regular files with contents, directories, and links
to other paths, each at a place, which is the row of names that leads there from the root. A name is
any bytes; paths are text and name by its UTF-8.

`Tree.locate` follows a path to a place as the system does: segment by segment, `..` leading up from
where one is, links replaced by what they point to. A relative path starts at the working directory.
-/

namespace Stairway.Files

abbrev Name := List UInt8

/-- The names on the way from the root; the empty place is the root. -/
abbrev Place := List Name

inductive Entry where
  | file (contents : List UInt8)
  | directory
  | link (target : String)
  deriving DecidableEq

structure Tree where
  /-- What there is, in the order in which it was made. -/
  entries : List (Place × Entry) := []
  workingDirectory : Place := []

namespace Tree

def nameOf (segment : List Char) : Name := Text.Utf8.encode segment

/-- What is at a place; the root is always there. -/
def entryAt? (t : Tree) (p : Place) : Option Entry :=
  if p.isEmpty then some .directory else t.entries.lookup p

/-- The segments of a path; `.` and empty ones are kept, for each of them asks for a directory. -/
def segmentsOf (path : String) : List (List Char) := path.toList.splitOn '/'

/-- Whether a segment stays where it is. -/
def isIdle (segment : List Char) : Bool := segment.isEmpty || segment = ['.']

/-- Where a path begins. -/
def origin (t : Tree) (path : String) : Place :=
  if path.toList.head? = some '/' then [] else t.workingDirectory

/-- How many links are followed on one path. -/
def linkLimit : Nat := 40

/-- Walks on from a place. A link at the end is followed if `followLast` says so. -/
def walk (t : Tree) (followLast : Bool) (links : Nat) (at_ : Place) :
    List (List Char) → Except IoError Place
  | [] => .ok at_
  | s :: rest =>
    if t.entryAt? at_ ≠ some .directory then .error .notADirectory
    else if isIdle s then walk t followLast links at_ rest
    else if s = ['.', '.'] then walk t followLast links at_.dropLast rest
    else
      let next := at_ ++ [nameOf s]
      match t.entryAt? next with
      | none => .error .notFound
      | some (.link target) =>
        if rest.isEmpty && !followLast then .ok next
        else
          match links with
          | 0 => .error .tooManyLinks
          | links + 1 =>
            let start := if target.toList.head? = some '/' then [] else at_
            walk t followLast links start (segmentsOf target ++ rest)
      | some _ => walk t followLast links next rest
termination_by segments => (links, segments.length)

/-- The place that a path leads to. -/
def locate (t : Tree) (path : String) : Except IoError Place :=
  if path.isEmpty then .error .notFound
  else t.walk true linkLimit (t.origin path) (segmentsOf path)

def isDirectory (t : Tree) (path : String) : Bool :=
  match t.locate path with
  | .ok p => t.entryAt? p = some .directory
  | .error _ => false

/-- The contents of a file. -/
def read (t : Tree) (path : String) : Except IoError (List UInt8) := do
  match t.entryAt? (← t.locate path) with
  | some (.file contents) => return contents
  | some _ => throw .isADirectory
  | none => throw .notFound

/-- The contents of a file of text. -/
def readText (t : Tree) (path : String) : Except IoError String := do
  match Text.Utf8.decode? (← t.read path) with
  | some text => return String.ofList text
  | none => throw .invalidText

/-- The names in a directory and what each stands for, in the order in which they were made. -/
def list (t : Tree) (path : String) : Except IoError (List (Name × Entry)) := do
  let p ← t.locate path
  if t.entryAt? p ≠ some .directory then throw .notADirectory
  return t.entries.filterMap fun (q, e) =>
    match q.getLast? with
    | some name => if q.dropLast = p then some (name, e) else none
    | none => none

/-! ## Changes -/

/-- Puts an entry at a place, in place of what was there. -/
def put (t : Tree) (p : Place) (e : Entry) : Tree :=
  if (t.entries.lookup p).isSome then
    { t with entries := t.entries.map fun (q, old) => if q = p then (q, e) else (q, old) }
  else { t with entries := t.entries ++ [(p, e)] }

def remove (t : Tree) (p : Place) : Tree := { t with entries := t.entries.filter (·.1 ≠ p) }

/-- Makes every directory on the way to a place that is not there. -/
def ensureDirectories (t : Tree) (p : Place) : Tree :=
  (List.range p.length).foldl
    (fun t n =>
      let q := p.take (n + 1)
      if (t.entryAt? q).isSome then t else t.put q .directory)
    t

/-- Makes one directory, whose path is given by its segments in reverse order. -/
def makeDirectory (t : Tree) (start : Place) : List (List Char) → Except IoError Tree
  | [] => .error .fileExists
  | last :: before => do
    let p ← t.walk true linkLimit start before.reverse
    if t.entryAt? p ≠ some .directory then throw .notADirectory
    if last = ['.', '.'] || (t.entryAt? (p ++ [nameOf last])).isSome then throw .fileExists
    return t.put (p ++ [nameOf last]) .directory

/-- Makes a directory and those that lead to it, from segments in reverse order. One that is there
already is as good as one that was made. -/
def makeDirectories (t : Tree) (start : Place) : List (List Char) → Except IoError Tree
  | [] => .ok t
  | last :: before =>
    let isThere (t : Tree) : Bool :=
      match t.walk true linkLimit start (last :: before).reverse with
      | .ok p => t.entryAt? p = some .directory
      | .error _ => false
    let orThere (t : Tree) (e : IoError) : Except IoError Tree :=
      if isThere t then .ok t else .error e
    match t.makeDirectory start (last :: before) with
    | .ok t => .ok t
    | .error .notFound =>
      match t.makeDirectories start before with
      | .error e => .error e
      | .ok t =>
        match t.makeDirectory start (last :: before) with
        | .ok t => .ok t
        | .error e => orThere t e
    | .error e => orThere t e

/-- Makes a directory and every directory on the way that is missing. -/
def createDirectories (t : Tree) (path : String) : Except IoError Tree :=
  t.makeDirectories (t.origin path) ((segmentsOf path).filter (!isIdle ·)).reverse

end Tree

end Stairway.Files
