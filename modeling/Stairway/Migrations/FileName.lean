/-!
# Names of migration scripts

A script is a file named `<version>_<title>.<up|down>.<rest>`: decimal digits, an underscore, a
title, the direction between two dots, and anything. The direction is the last place in the name
where `.up.` or `.down.` stands, so a title may hold earlier ones. A name with a line end in it, or
with a version that does not fit 64 bits, is no name of a script.
-/

namespace Stairway

/-- Which way a script moves the schema. -/
inductive Direction where
  | up
  | down
  deriving DecidableEq, Repr

namespace Direction

def name : Direction → String
  | up => "up"
  | down => "down"

/-- What marks the direction in a file name. -/
def marker : Direction → List Char
  | up => ['.', 'u', 'p', '.']
  | down => ['.', 'd', 'o', 'w', 'n', '.']

end Direction

namespace Migrations

/-- What the name of a script says. -/
structure FileName where
  version : Nat
  title : String
  direction : Direction
  deriving DecidableEq, Repr

namespace FileName

/-- Versions in file names are smaller than this. -/
def versionLimit : Nat := 0x10000000000000000

/-- The direction whose marker a text begins with. -/
def markerAt (s : List Char) : Option Direction :=
  if Direction.up.marker.isPrefixOf s then some .up
  else if Direction.down.marker.isPrefixOf s then some .down
  else none

/-- The text before the last marker, and the marker's direction. -/
def cutAtLastMarker : List Char → Option (List Char × Direction)
  | [] => none
  | c :: rest =>
    match cutAtLastMarker rest with
    | some (title, d) => some (c :: title, d)
    | none => (markerAt (c :: rest)).map fun d => ([], d)

/-- The value of decimal digits. -/
def valueOf (digits : List Char) : Nat := digits.foldl (fun n c => n * 10 + (c.toNat - '0'.toNat)) 0

def parseChars (s : List Char) : Option FileName :=
  let digits := s.takeWhile Char.isDigit
  match s.dropWhile Char.isDigit with
  | '_' :: rest =>
    if s.contains '\n' || digits.isEmpty || versionLimit ≤ valueOf digits then none
    else (cutAtLastMarker rest).map fun (title, d) => ⟨valueOf digits, String.ofList title, d⟩
  | _ => none

/-- Reads the name of a file; `none` if it is no script's. -/
def parse? (name : String) : Option FileName := parseChars name.toList

end FileName

end Migrations

end Stairway
