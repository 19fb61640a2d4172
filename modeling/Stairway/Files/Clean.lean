/-!
# Clean paths

`clean` shortens a path by its text alone: segments `.` and empty ones go, `..` takes the ordinary
segment before it away, and `..` at the root stays at the root. What cannot be folded are the `..`
that lead out of the starting point; they stay in front. A path of which nothing is left is `.`.
`join` puts one path behind another.
-/

namespace Stairway.Files

/-- The segments of a path that lead somewhere. -/
def segments (path : List Char) : List (List Char) :=
  (path.splitOn '/').filter fun s => !s.isEmpty && s ≠ ['.']

/-- Adds a segment to the segments before it, which are kept in reverse order. -/
def addSegment (rooted : Bool) (before : List (List Char)) (s : List Char) : List (List Char) :=
  if s ≠ ['.', '.'] then s :: before
  else
    match before with
    | [] => if rooted then [] else [s]
    | last :: rest => if last ≠ ['.', '.'] then rest else s :: before

/-- The segments that are left of a path, in order. -/
def cleanSegments (rooted : Bool) (path : List (List Char)) : List (List Char) :=
  (path.foldl (addSegment rooted) []).reverse

/-- The path without detours. -/
def cleanChars (path : List Char) : List Char :=
  let rooted := path.head? = some '/'
  let joined := ['/'].intercalate (cleanSegments rooted (segments path))
  if rooted then '/' :: joined else if joined.isEmpty then ['.'] else joined

def clean (path : String) : String := String.ofList (cleanChars path.toList)

/-- A path with a relative one behind it. -/
def join (path name : String) : String :=
  if path.isEmpty || path.toList.getLast? = some '/' then path ++ name else path ++ "/" ++ name

end Stairway.Files
