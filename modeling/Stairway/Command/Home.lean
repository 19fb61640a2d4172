import Stairway.Files.Tree

/-!
# The home directory

Logs are kept in the directory `logs` of a home, which the variable `KEEL_HOME` names; without it,
or if it is empty, the home is `.keel` in the home of the person who runs the program. That one is
named by `HOME`, or else by the system's accounts.
-/

namespace Stairway.Command

inductive HomeError where
  /-- Nobody says where home is. -/
  | unknown
  | notCreated (path : String) (cause : IoError)
  deriving DecidableEq, Repr

def HomeError.message : HomeError → String
  | unknown => "Could not determine home directory, set KEEL_HOME"
  | notCreated path cause => "Failed to create logs directory: " ++ path ++ ": " ++ cause.message

/-- What is known about homes. -/
structure Homes where
  /-- The value of `KEEL_HOME`. -/
  chosen : Option String := none
  /-- The value of `HOME`. -/
  personal : Option String := none
  /-- The home that belongs to the account which the program runs under. -/
  account : Option String := none
  deriving DecidableEq, Repr

namespace Homes

def directory (h : Homes) : Except HomeError String :=
  match h.chosen.filter (!·.isEmpty), (h.personal.filter (!·.isEmpty)).or h.account with
  | some path, _ => .ok path
  | none, some home => .ok (Files.join home ".keel")
  | none, none => .error .unknown

def logs (h : Homes) : Except HomeError String := h.directory.map (Files.join · "logs")

/-- Makes the directory for logs if it is missing. -/
def ensureLogs (h : Homes) (t : Files.Tree) : Except HomeError (String × Files.Tree) := do
  let path ← h.logs
  match t.createDirectories path with
  | .ok t => return (path, t)
  | .error cause => throw (.notCreated path cause)

end Homes

end Stairway.Command
