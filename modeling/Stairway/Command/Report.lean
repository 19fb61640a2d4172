import Stairway.Command.SettingsFile
import Stairway.Controller.Failure

/-!
# Reports of a failed run

What the program says when it gives up: a cause, and in front of it what was being done, outermost
first. The exit code tells an operation that ran out of time from any other failure, however much is
said in front.
-/

namespace Stairway.Command

inductive Cause where
  | failure (f : Failure)
  | other (text : String)
  deriving DecidableEq, Repr

structure Report where
  /-- What was being done, outermost first. -/
  contexts : List String := []
  cause : Cause
  deriving DecidableEq, Repr

/-- What a failure says, followed by what each cause behind it says. -/
def Cause.chain : Cause → List String
  | failure (.engine (.io cause)) =>
    [(Failure.engine (.io cause)).message, (EngineError.io cause).message, cause.message]
  | failure f => f.message :: f.source.toList
  | other text => [text]

namespace Report

def ofFailure (f : Failure) : Report := { cause := .failure f }

def ofFile (e : FileError) : Report := { contexts := [e.message], cause := .other e.cause }

/-- A report within a further context. -/
def within (r : Report) (context : String) : Report := { r with contexts := context :: r.contexts }

def message (r : Report) : String := String.intercalate ": " (r.contexts ++ r.cause.chain)

/-- 2 for an operation that ran out of time, 1 for anything else. -/
def exitCode (r : Report) : UInt32 := if r.cause = .failure .timedOut then 2 else 1

end Report

end Stairway.Command
