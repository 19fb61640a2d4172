import Stairway.Postgres.Session

/-!
# Holding the lock

Only one engine at a time may change a schema. It asks for an advisory lock until it gets it, runs
the locked part, and gives the lock back however that part ends. `acquire` asks at once, then every
tenth of a second and a last time at the deadline; `locked` puts a part between taking the lock and
giving it back.
-/

namespace Stairway.Postgres

/-- What an engine does: asks its session, and may fail. -/
abbrev Work (α : Type) := ExceptT DatabaseError (Program interface) α

namespace Work

/-- Asks the session. -/
def ask (r : Request) : Work r.Answer := ExceptT.lift (Program.request (I := interface) r)

/-- Goes on with an answer, whose error it takes for its own. -/
def get {ε α : Type} (wrap : ε → DatabaseError) (r : Except ε α) : Work α :=
  ExceptT.mk (.done (r.mapError wrap))

/-- The end of the work, as a value. -/
def attempt {α : Type} (w : Work α) : Work (Except DatabaseError α) := ExceptT.lift w.run

def wait (d : Duration) : Work Unit := ExceptT.lift (Program.sleep d)

/-- Breaks off. -/
def breakOff {α : Type} : Work α := ExceptT.mk .crash

end Work

/-- Sends a statement; a rollback that is owed goes first. -/
def send (q : Statement) : Work q.Reply := do
  if ← Work.ask .takeOwedRollback then
    Work.get .connection (← Work.ask (.statement .rollback))
  Work.get .connection (← Work.ask (.statement q))

/-- How long an engine waits between two tries for the lock. -/
def pollInterval : Duration := Duration.ofMillis 100

/-- How long to wait at `now` before the next try: the interval, or what is left before the
deadline. -/
def pollDelay (deadline now : Instant) : Duration := min pollInterval (deadline - now)

theorem pollDelay_lt {deadline known now : Nat} (h : ¬deadline ≤ max known now) :
    deadline - (max known now + pollDelay deadline (max known now)) < deadline - known := by
  have : (0 : Nat) < pollInterval := by decide
  unfold pollDelay
  omega

/-- Asks for the lock until the deadline; `known` is an instant that has passed. -/
def poll (key : Int) (timeout : Duration) (deadline known : Instant) : Work Unit := do
  if ← send (.tryLock key) then return ()
  let now := max known (← Work.ask .now)
  if _ : deadline ≤ now then throw (.lockTimeout timeout)
  else
    Work.wait (pollDelay deadline now)
    poll key timeout deadline (now + pollDelay deadline now)
termination_by deadline - known
decreasing_by exact pollDelay_lt (by assumption)

/-- Takes the lock, or fails if nobody gives it up within `timeout`. -/
def acquire (key : Int) (timeout : Duration) : Work Unit := do
  let start ← Work.ask .now
  match Instant.later? start timeout with
  | some deadline => poll key timeout deadline start
  | none => Work.breakOff

/-- Gives the lock back. -/
def release (key : Int) : Work Unit := do
  if !(← send (.unlock key)) then
    let _ ← Work.ask (.log "Migration lock was not held")

/-- Runs `body` with the lock. An error of the body comes before one of giving the lock back. -/
def locked {α : Type} (key : Int) (body : Work α) : Work α := do
  acquire key (← Work.ask .lockTimeout)
  let result ← body.attempt
  let released ← (release key).attempt
  match result, released with
  | .error e, _ => throw e
  | .ok _, .error e => throw e
  | .ok a, .ok () => return a

end Stairway.Postgres
