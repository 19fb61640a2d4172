import Stairway.Program
import Stairway.IoError

/-!
# Engines

An engine owns a database and a source of migrations and can move the schema of one through the
other. `Engine I` lists what a controller may ask of it, each as a program over the interface `I`
that the engine speaks to the world: a controller written against `Engine` drives an engine in
memory and one behind a server alike.
-/

namespace Stairway

/-- The version recorded in a database; version 0 stands for none. -/
structure SchemaVersion where
  version : Nat
  /-- The transition that led to `version` did not finish. -/
  dirty : Bool
  deriving DecidableEq, Repr

inductive EngineError where
  /-- The source has no script for the version. -/
  | missingMigration (version : Nat)
  /-- Another session held the migration lock for too long. -/
  | lockTimeout (after : Duration)
  /-- The source could not be read. -/
  | source (text : String)
  /-- The database refused a statement or a connection. -/
  | database (text : String)
  /-- A stop was requested between two steps. -/
  | stopped
  | io (cause : IoError)
  deriving DecidableEq, Repr

def EngineError.message : EngineError → String
  | missingMigration v => "no migration found for version " ++ toString v
  | lockTimeout d => "timed out acquiring migration lock after " ++ Duration.render d
  | source text => "migration source error: " ++ text
  | database text => "database error: " ++ text
  | stopped => "migration stopped before reaching the target version"
  | io cause => "IO error: " ++ cause.message

/-- The two sides of an engine are closed on their own and fail on their own. -/
structure CloseResult where
  source : Option EngineError := none
  database : Option EngineError := none
  deriving DecidableEq, Repr

/-- How long an engine waits for its lock when nobody says otherwise. -/
def defaultLockTimeout : Duration := Duration.ofSeconds 15

/-- What a controller may ask of an engine. -/
structure Engine (I : Interface) where
  /-- The recorded version; `none` if the database has never been migrated. -/
  version : Program I (Except EngineError (Option SchemaVersion))
  /-- Moves the schema to a version, up or down. -/
  migrateTo : Nat → Program I (Except EngineError Unit)
  /-- Records a version as clean without running anything; `-1` records none. -/
  force : Int → Program I (Except EngineError Unit)
  /-- Gives up the source and the database. -/
  close : Program I CloseResult
  defaultLockTimeout : Program I Duration
  setLockTimeout : Duration → Program I Unit
  /-- Asks a running migration to stop after its current step; says whether the request was kept. -/
  requestStop : Program I Bool
  /-- Writes a line to the log. -/
  log : String → Program I Unit

end Stairway
