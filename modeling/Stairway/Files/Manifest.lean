import Stairway.Files.Tree

/-!
# Manifests

A manifest describes a file tree in lines of text, one for each file or directory. A file's line is
its path, a tab and its text on one line, in which `\n`, `\r`, `\t` and `\\` stand for a line feed,
a carriage return, a tab and a backslash. A line without a tab is the path of a directory. Paths
count from the root, and the directories that lead to an entry need no line.
-/

namespace Stairway.Files.Manifest

/-- A text as it stands on a line. -/
def escape : List Char → List Char
  | [] => []
  | '\\' :: rest => '\\' :: '\\' :: escape rest
  | '\n' :: rest => '\\' :: 'n' :: escape rest
  | '\r' :: rest => '\\' :: 'r' :: escape rest
  | '\t' :: rest => '\\' :: 't' :: escape rest
  | c :: rest => c :: escape rest

/-- The text that a line stands for; a backslash before any other character stands for itself. -/
def unescape : List Char → List Char
  | [] => []
  | '\\' :: '\\' :: rest => '\\' :: unescape rest
  | '\\' :: 'n' :: rest => '\n' :: unescape rest
  | '\\' :: 'r' :: rest => '\r' :: unescape rest
  | '\\' :: 't' :: rest => '\t' :: unescape rest
  | c :: rest => c :: unescape rest

theorem unescape_escape (s : List Char) : unescape (escape s) = s := by
  fun_induction escape s with
  | case1 => rfl
  | case2 rest ih => simp [unescape, ih]
  | case3 rest ih => simp [unescape, ih]
  | case4 rest ih => simp [unescape, ih]
  | case5 rest ih => simp [unescape, ih]
  | case6 c rest h _ _ _ ih =>
    rw [unescape.eq_6 _ _ (by simp_all) (by simp_all) (by simp_all) (by simp_all), ih]

/-- The place of a path that counts from the root. -/
def placeOf (path : List Char) : Place :=
  ((path.splitOn '/').filter (!Tree.isIdle ·)).map Tree.nameOf

/-- Puts what a line describes into a tree. -/
def addLine (t : Tree) (line : List Char) : Tree :=
  let place := placeOf (line.takeWhile (· ≠ '\t'))
  match line.dropWhile (· ≠ '\t') with
  | [] => t.ensureDirectories place
  | _ :: text =>
    (t.ensureDirectories place.dropLast).put place (.file (Text.Utf8.encode (unescape text)))

/-- The tree that lines describe; an empty line describes nothing. -/
def toTree (lines : List String) : Tree :=
  ((lines.map String.toList).filter (!·.isEmpty)).foldl addLine {}

end Stairway.Files.Manifest
