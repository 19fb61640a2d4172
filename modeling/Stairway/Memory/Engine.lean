import Stairway.Engine
import Stairway.Stop

/-!
# An engine in memory

The version is kept in memory and migrating moves it by one at a time, so a controller can be tried
without a database. `Store` is the engine's state together with a record of what was asked of it:
every call, every lock timeout, every step. `Request` lists the moments at which the state can be
seen or changed; `engine` puts them together to what a controller asks for.

`Faults` make the engine misbehave on purpose: a call that fails or breaks off instead of being
served, or a side of a close that reports an error of its own.
-/

namespace Stairway.Memory

/-- A call that a controller made. -/
inductive Call where
  | version
  | migrateTo (version : Nat)
  | force (version : Int)
  | close
  deriving DecidableEq, Repr

/-- The points at which faults can be planned. -/
inductive Point where
  | version
  | migrateTo
  | force
  | closeSource
  | closeDatabase
  | connect
  deriving DecidableEq, Repr

inductive Fault where
  | error (e : EngineError)
  /-- The call breaks off. -/
  | crash

/-- Planned misbehaviour. -/
structure Faults where
  errors : List (Point × EngineError) := []
  crash : Option Point := none
  /-- What the engine says its lock timeout is when nobody overrides it. -/
  defaultLockTimeout : Option Duration := none

/-- The fault planned for a point; breaking off comes before an error. -/
def Faults.at (f : Faults) (p : Point) : Option Fault :=
  if f.crash = some p then some .crash else (f.errors.lookup p).map .error

structure Store where
  version : Option Nat := none
  dirty : Bool := false
  /-- The highest version that can be migrated to. -/
  available : Nat := 10
  stepDelay : Duration := 0
  migrateError : Option String := none
  closeSourceError : Option String := none
  closeDatabaseError : Option String := none
  closed : Bool := false
  calls : List Call := []
  lockTimeout : Duration := defaultLockTimeout
  lockTimeouts : List Duration := []
  steps : Nat := 0
  stop : StopSlot := {}
  faults : Faults := {}
  log : List String := []

/-- The moments at which the store can be seen or changed. -/
inductive Request where
  | fault (p : Point)
  | version
  /-- Records the call to migrate and gives the delay of a step and the version to start from. -/
  | startMigration (target : Nat)
  | takeStop
  | beginStep (next : Nat)
  | endStep (next : Nat)
  | force (version : Int)
  | close
  | defaultLockTimeout
  | setLockTimeout (d : Duration)
  | requestStop
  | log (line : String)

@[reducible] def Request.Answer : Request → Type
  | fault _ => Option Fault
  | version => Except EngineError (Option SchemaVersion)
  | startMigration _ => Except EngineError (Duration × Nat)
  | takeStop => Bool
  | beginStep _ => Unit
  | endStep _ => Unit
  | force _ => Unit
  | close => CloseResult
  | defaultLockTimeout => Duration
  | setLockTimeout _ => Unit
  | requestStop => Bool
  | log _ => Unit

abbrev interface : Interface := ⟨Request, Request.Answer⟩

/-- What a database says whose connection is gone. -/
def alreadyClosed : EngineError := .database "connection is already closed"

namespace Store

def record (s : Store) (c : Call) : Store := { s with calls := s.calls ++ [c] }

/-- Serves a request: the answer and the store after it. -/
def serve (s : Store) : (r : Request) → r.Answer × Store
  | .fault p => (s.faults.at p, s)
  | .version =>
    let s := s.record .version
    if s.closed then (.error alreadyClosed, s)
    else (.ok (s.version.map fun v => ⟨v, s.dirty⟩), s)
  | .startMigration target =>
    let s := s.record (.migrateTo target)
    match s.migrateError with
    | some text => (.error (.database text), s)
    | none =>
      if s.available < target then (.error (.missingMigration target), s)
      else (.ok (s.stepDelay, s.version.getD 0), s)
  | .takeStop =>
    let (b, stop) := s.stop.take
    (b, { s with stop })
  | .beginStep next => ((), { s with version := some next, dirty := true })
  | .endStep next =>
    ((), { s with
      dirty := false, steps := s.steps + 1, version := if next = 0 then none else s.version })
  | .force v =>
    ((),
      { s.record (.force v) with version := if 0 ≤ v then some v.toNat else none, dirty := false })
  | .close =>
    let database := if s.closed then some alreadyClosed else s.closeDatabaseError.map .database
    (⟨s.closeSourceError.map .source, database⟩, { s.record .close with closed := true })
  | .defaultLockTimeout => (s.faults.defaultLockTimeout.getD Stairway.defaultLockTimeout, s)
  | .setLockTimeout d => ((), { s with lockTimeout := d, lockTimeouts := s.lockTimeouts ++ [d] })
  | .requestStop =>
    let (b, stop) := s.stop.request
    (b, { s with stop })
  | .log line => ((), { s with log := s.log ++ [line] })

end Store

instance : Machine interface Store where
  answer r _ s := s.serve r

/-- Asks a request of the store. -/
def ask (r : Request) : Program interface r.Answer := Program.request (I := interface) r

/-- Takes steps of one up or down from `current` until `target`, each unless a stop is requested. -/
def stepsUpTo (delay : Duration) (target current : Nat) :
    Program interface (Except EngineError Unit) :=
  if h : current = target then pure (.ok ())
  else do
    if ← ask .takeStop then pure (.error .stopped)
    else
      let next := if current < target then current + 1 else current - 1
      ask (.beginStep next)
      if delay ≠ 0 then Program.sleep delay
      ask (.endStep next)
      stepsUpTo delay target next
termination_by (target - current) + (current - target)
decreasing_by
  split <;> omega

/-- Runs `p` unless a fault is planned for the point. -/
def guarded (point : Point) (p : Program interface (Except EngineError α)) :
    Program interface (Except EngineError α) := do
  match ← ask (.fault point) with
  | some .crash => Program.crash
  | some (.error e) => pure (.error e)
  | none => p

def migrateTo (target : Nat) : Program interface (Except EngineError Unit) := do
  match ← ask (.startMigration target) with
  | .error e => pure (.error e)
  | .ok (delay, current) => stepsUpTo delay target current

/-- Closes the store; a fault planned for a side takes the place of what that side reports. -/
def close : Program interface CloseResult := do
  let result ← ask .close
  match ← ask (.fault .closeSource), ← ask (.fault .closeDatabase) with
  | some .crash, _ => Program.crash
  | _, some .crash => Program.crash
  | source, database =>
    let side (fault : Option Fault) (reported : Option EngineError) : Option EngineError :=
      match fault with
      | some (.error e) => some e
      | _ => reported
    pure ⟨side source result.source, side database result.database⟩

/-- The engine in memory. -/
def engine : Engine interface where
  version := guarded .version (ask .version)
  migrateTo target := guarded .migrateTo (migrateTo target)
  force v := guarded .force do
    ask (.force v)
    pure (.ok ())
  close := close
  defaultLockTimeout := ask .defaultLockTimeout
  setLockTimeout d := ask (.setLockTimeout d)
  requestStop := ask .requestStop
  log line := ask (.log line)

end Stairway.Memory
