import Stairway.Command.Run
import Stairway.Files.Manifest

/-!
# The command line

A rehearsal of an invocation. The files that it sees come on standard input as a manifest, and the
server is one in memory that nobody has used before. What the server is sent is printed on standard
output; what is said on the way, and of a failure, on standard error. The exit code tells how the
invocation ended.
-/

namespace Stairway

/-- The variables that an invocation looks at. -/
def environmentNames : List String :=
  "KEEL_HOME" :: "HOME" :: Command.Parameter.all.map (·.variable_)

/-- What is set of some variables. -/
def readEnvironment (names : List String) : IO (List (String × String)) :=
  names.filterMapM fun name => return (← IO.getEnv name).map (name, ·)

/-- The lines of a stream up to its end, without line ends. -/
partial def readLines (input : IO.FS.Stream) : IO (List String) := do
  let line ← input.getLine
  if line.isEmpty then return []
  return String.ofList (line.toList.filter (· ≠ '\n')) :: (← readLines input)

/-- The statements that a server was sent, in order. -/
def sentTo (s : Postgres.Server) : List String :=
  s.events.filterMap fun (_, e) =>
    match e with
    | .statement q => some q.sql
    | .connected _ _ _ => none

/-- Rehearses an invocation. -/
def rehearse (arguments : List String) : IO UInt32 := do
  let surroundings : Command.Surroundings := {
    arguments
    environment := ← readEnvironment environmentNames
    site := { session := { files := Files.Manifest.toTree (← readLines (← IO.getStdin)) } } }
  match Command.execute surroundings with
  | none => return 1
  | some after =>
    (sentTo after.site.server).forM IO.println
    (after.site.session.log ++ after.messages).forM IO.eprintln
    return after.exitCode

end Stairway

def main (arguments : List String) : IO UInt32 := Stairway.rehearse arguments
