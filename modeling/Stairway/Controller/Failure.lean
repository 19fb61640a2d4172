import Stairway.Engine
import Stairway.Text.Quoted
import Stairway.Url.Error

/-!
# Why a controller operation fails

Either the context was done first, or something else went wrong. A failure keeps its cause as a
value; `message` is its wording, `text` the part of it that names the cause, and `source` the
wording of the engine's own error where there is one.
-/

namespace Stairway

inductive Failure where
  /-- The operation did not report its end before its context was done. -/
  | timedOut
  /-- The pattern for errors of an already closed connection is no pattern. -/
  | invalidPattern
  | invalidHost (host : String) (cause : Url.UrlError)
  /-- The host leaves no place for a user. -/
  | noPlaceForUser
  | noPlaceForPassword
  | dirty (current : Nat)
  | behind (desired current : Nat)
  | ahead (desired current : Nat)
  /-- The recorded version does not fit the column that `force` writes. -/
  | cannotForce (current : Nat)
  | engine (cause : EngineError)
  /-- Both sides of an engine failed to close. -/
  | closing (source database : EngineError)
  /-- The body of the operation broke off. -/
  | brokenOff
  | other (text : String)
  deriving DecidableEq, Repr

namespace Failure

/-- What a failure that is not a time-out says about its cause. -/
def text : Failure → String
  | timedOut => ""
  | invalidPattern => "invalid already-closed pattern"
  | invalidHost host cause => "invalid database host " ++ Text.quoted host ++ ": " ++ cause.message
  | noPlaceForUser => "database URL cannot carry a user"
  | noPlaceForPassword => "database URL cannot carry a password"
  | dirty c => "current schema version " ++ toString c ++ " is dirty"
  | behind d c =>
    "desired schema version " ++ toString d ++ " behind from current one " ++ toString c
  | ahead d c => "desired schema version " ++ toString d ++ " ahead of current one " ++ toString c
  | cannotForce c => "current schema version " ++ toString c ++ " cannot be forced"
  | engine cause => cause.message
  | closing source database => source.message ++ "; " ++ database.message
  | brokenOff => "operation task failed"
  | other text => text

def message : Failure → String
  | timedOut => "migrator timed out"
  | f => "migrator failed: " ++ f.text

/-- The wording of the engine's error behind a failure. -/
def source : Failure → Option String
  | engine cause => some cause.message
  | closing s d => some (Failure.closing s d).text
  | _ => none

def isTimedOut (f : Failure) : Bool := f = timedOut

end Failure

end Stairway
