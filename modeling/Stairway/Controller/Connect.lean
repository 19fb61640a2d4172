import Stairway.Controller.Envelope
import Stairway.Controller.Settings
import Stairway.Pattern.Parser

/-!
# Connecting

A controller begins with settings that make sense: a pattern and an address that can be put
together. Then it opens an engine, as often as its retry policy says, under the deadline of the
caller's context. A caller who has stopped waiting leaves the attempt under way behind: it ends by
itself, and no further one follows.
-/

namespace Stairway

/-- What settings come down to before anything is opened. -/
structure Address where
  alreadyClosed : Pattern
  sourceUrl : String
  databaseUrl : String

def Settings.address (s : Settings) : Except Failure Address := do
  let some alreadyClosed := Pattern.parse? s.alreadyClosedPattern | throw .invalidPattern
  let url ← s.database.connectionUrl
  pure ⟨alreadyClosed, s.sourceUrl, url.render⟩

variable {I : Interface} {ε : Type}

/-- Opens an engine, retrying; every attempt is announced in the log. -/
def Settings.connecting (s : Settings) (log : String → Program I Unit)
    (connect : Program I (Except EngineError ε)) : Program I (Except Failure ε) :=
  let attempts := max s.retry.attempts 1
  let attempt (n : Nat) : Program I (Except EngineError ε) := do
    log ("Trying to connect to the " ++ s.database.name ++ " database " ++ toString n ++ "/"
      ++ toString attempts)
    connect
  (retrying s.retry attempt).bind fun r => .done (r.mapError .engine)

/-- What is said once the engine is open. -/
def Settings.connected (s : Settings) : String :=
  "Connected to the " ++ s.database.name ++ " database"

/-- A controller as shown to a person: its settings, and whether no operation owns the engine. -/
def Settings.controllerDebug (s : Settings) (idle : Bool) : String :=
  Text.record "Migrator" [("config", s.debug), ("idle", Text.truth idle)] true

/-- Runs a body from `start` under a context that is done from `expiry` on: what its caller gets and
when, and how far the body had come by then. -/
def runUnder {σ α : Type} [Machine I σ] (start : Instant) (expiry : Option Instant) (machine : σ)
    (body : Program I (Except Failure α)) :
    Option (Instant × Except Failure α) × Progress I σ (Except Failure α) :=
  let fresh : Activity I (Except Failure α) := .ofProgram start body
  if expiry.any (· ≤ start) then (some (start, .error .timedOut), ⟨fresh, machine, start⟩)
  else
    let p := fresh.run expiry (expiry.map (· + 1)) start machine
    let ending :=
      match p.activity with
      | .ended o => some (p.now, o)
      | _ => none
    (envelope start expiry ending, p)

end Stairway
