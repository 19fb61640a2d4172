/-!
# Errors of the operating system

What files, directories and connections fail with, and the system's wording of each.
-/

namespace Stairway

inductive IoError where
  | notFound
  | fileExists
  | notADirectory
  | isADirectory
  | tooManyLinks
  /-- The contents of a file are not UTF-8. -/
  | invalidText
  | networkUnreachable
  /-- Any other error, by its text. -/
  | other (text : String)
  deriving DecidableEq, Repr

def IoError.message : IoError → String
  | notFound => "No such file or directory (os error 2)"
  | fileExists => "File exists (os error 17)"
  | notADirectory => "Not a directory (os error 20)"
  | isADirectory => "Is a directory (os error 21)"
  | tooManyLinks => "Too many levels of symbolic links (os error 40)"
  | invalidText => "stream did not contain valid UTF-8"
  | networkUnreachable => "Network is unreachable (os error 101)"
  | other text => text

end Stairway
