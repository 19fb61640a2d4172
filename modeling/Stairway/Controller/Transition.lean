import Stairway.Controller.Failure

/-!
# Transitions

The three things a controller does to a schema, as programs over any engine. Each begins by reading
the recorded version, none counting as 0.

* `assertVersion` changes nothing and succeeds only at the desired version, clean.
* `applyVersion` moves up to the desired version; it refuses a dirty schema and never moves down.
* `rollbackVersion` clears a dirty flag first and moves down to the desired version; it never moves
  up.
-/

namespace Stairway

/-- What a controller can be asked to do to a schema. -/
inductive Transition where
  | assert
  | apply
  | rollback
  deriving DecidableEq, Repr

def Transition.name : Transition → String
  | assert => "assert"
  | apply => "apply"
  | rollback => "rollback"

variable {I : Interface}

/-- A program that may fail. -/
abbrev Attempt (I : Interface) (α : Type) := ExceptT Failure (Program I) α

/-- An engine's answer, its error taken as the cause of the failure. -/
def Attempt.ofEngine (p : Program I (Except EngineError α)) : Attempt I α :=
  ExceptT.mk (p.bind fun r => .done (r.mapError .engine))

namespace Engine

variable (e : Engine I)

/-- Writes a line to the log. -/
def info (line : String) : Attempt I Unit := ExceptT.lift (e.log line)

/-- The recorded version; a database without one counts as clean at 0. -/
def current : Attempt I SchemaVersion := do
  return (← Attempt.ofEngine e.version).getD ⟨0, false⟩

def assertVersion (desired : Nat) : Attempt I Unit := do
  let current ← e.current
  if current.dirty then throw (.dirty current.version)
  if desired < current.version then throw (.behind desired current.version)
  if current.version < desired then throw (.ahead desired current.version)
  e.info ("Desired schema version " ++ toString desired ++ " asserted")

def applyVersion (desired : Nat) : Attempt I Unit := do
  let current ← e.current
  if current.dirty then throw (.dirty current.version)
  if current.version = desired then e.info "No migrations to apply"
  else if desired < current.version then throw (.behind desired current.version)
  else
    e.info (toString (desired - current.version) ++ " migrations to be applied")
    Attempt.ofEngine (e.migrateTo desired)
    e.info "Applied all migrations successfully"

/-- The largest version that can be forced. -/
def largestForced : Nat := 0x7FFFFFFFFFFFFFFF

/-- Marks a dirty version clean. -/
def repair (version : Nat) : Attempt I Unit := do
  e.info ("Current schema version " ++ toString version ++ " is dirty, ignoring")
  if largestForced < version then throw (.cannotForce version)
  Attempt.ofEngine (e.force version)

def rollbackVersion (desired : Nat) : Attempt I Unit := do
  let current ← e.current
  if current.dirty then e.repair current.version
  if current.version = desired then e.info "No migrations to rollback"
  else if current.version < desired then throw (.ahead desired current.version)
  else
    e.info (toString (current.version - desired) ++ " migrations to be rolled back")
    Attempt.ofEngine (e.migrateTo desired)
    e.info "Rolled back all migrations successfully"

def perform : Transition → Nat → Attempt I Unit
  | .assert => e.assertVersion
  | .apply => e.applyVersion
  | .rollback => e.rollbackVersion

/-- Puts the engine's own lock timeout back. -/
def restoreLockTimeout : Program I Unit := do
  e.setLockTimeout (← e.defaultLockTimeout)

/-- The body of an operation, once it has the engine: waits for locks no longer than the time left,
if there is a deadline, and puts the engine's lock timeout back however it ends. -/
def operation (kind : Transition) (desired : Nat) (remaining : Option Duration) :
    Program I (Except Failure Unit) := do
  if let some d := remaining then e.setLockTimeout d
  Program.ensuring (e.perform kind desired).run e.restoreLockTimeout

/-- What is left to report of the two sides of a close. -/
def combineCloseErrors : Option EngineError → Option EngineError → Option Failure
  | none, none => none
  | some e, none => some (.engine e)
  | none, some e => some (.engine e)
  | some s, some d => some (.closing s d)

/-- The body of a close, once it has the engine. Errors of the database side that `isBenign` holds
of are no errors. -/
def closing (isBenign : String → Bool) : Program I (Except Failure Unit) := do
  let result ← e.close
  let database := result.database.filter fun err => !isBenign err.message
  match combineCloseErrors result.source database with
  | some failure => pure (.error failure)
  | none =>
    e.log "Closed migrator"
    pure (.ok ())

/-- What a close does before it waits for anything: it says so and asks for a graceful stop. -/
def announceClose : Program I Unit := do
  e.log "Closing migrator"
  let _ ← e.requestStop

end Engine

end Stairway
