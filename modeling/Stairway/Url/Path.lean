import Stairway.Url.Percent

/-!
# Paths of URLs

The path of a URL with an authority is a row of segments, each behind a slash. A segment `.` is left
out and a segment `..` takes the one before it away; both may be written with `%2e` for a dot. What
is left out at the end leaves an empty last segment. A segment that looks like a drive letter is not
taken away.
-/

namespace Stairway.Url.Path

/-- A segment with its coded dots decoded, in small letters; enough to tell dot segments. -/
def plainDots : List Char → List Char
  | '%' :: '2' :: 'e' :: rest => '.' :: plainDots rest
  | '%' :: '2' :: 'E' :: rest => '.' :: plainDots rest
  | c :: rest => c :: plainDots rest
  | [] => []

def isSingleDot (s : List Char) : Bool := plainDots s == ['.']

def isDoubleDot (s : List Char) : Bool := plainDots s == ['.', '.']

/-- A letter and a colon or a bar. -/
def isDriveLetter : List Char → Bool
  | [c, d] => c.isAlpha && (d == ':' || d == '|')
  | _ => false

/-- Takes the last of the closed segments away, kept in reverse order. -/
def up : List (List Char) → List (List Char)
  | [] => []
  | s :: rest => if isDriveLetter s then s :: rest else rest

/-- The path with these closed segments, in reverse order, and this last one. -/
def joinOnto (closed : List (List Char)) (last : List Char) : List Char :=
  '/' :: (closed.reverse.flatMap fun s => s ++ ['/']) ++ last

/-- The path of some segments in order, after the closed ones. -/
def fold (closed : List (List Char)) : List (List Char) → List Char
  | [] => joinOnto closed []
  | [s] =>
    if isDoubleDot s then joinOnto (up closed) []
    else if isSingleDot s then joinOnto closed []
    else joinOnto closed s
  | s :: rest =>
    if isDoubleDot s then fold (up closed) rest
    else if isSingleDot s then fold closed rest
    else fold (s :: closed) rest

/-- The text split at every character of `isSlash`. -/
def segments (isSlash : Char → Bool) : List Char → List (List Char)
  | [] => [[]]
  | c :: rest =>
    if isSlash c then [] :: segments isSlash rest
    else
      match segments isSlash rest with
      | [] => [[c]]
      | s :: more => (c :: s) :: more

/-- The path that a text after its first slash spells. -/
def ofText (isSlash : Char → Bool) (text : List Char) : List Char :=
  fold [] ((segments isSlash text).map (Percent.encode Percent.sparedInPath))

end Stairway.Url.Path
