import Stairway.Engine
import Stairway.Migrations.Source
import Stairway.Url.Error

/-!
# What goes wrong with a PostgreSQL database

`ConnectionError` is what talking to a server fails with, `TargetFault` why a text is no address of
a database, and `DatabaseError` anything that an engine reports. `DatabaseError.toEngine` says it in
the words that all engines share.
-/

namespace Stairway.Postgres

inductive ConnectionError where
  /-- The server answered with an error. -/
  | refused (text : String)
  /-- The server could not be reached. -/
  | communication (cause : IoError)
  /-- The address asks for something that no connection can have. -/
  | configuration (text : String)
  /-- An encrypted connection was required and the server declines it. -/
  | noEncryption
  deriving DecidableEq, Repr

def ConnectionError.message : ConnectionError → String
  | refused text => "error returned from database: " ++ text
  | communication cause => "error communicating with database: " ++ cause.message
  | configuration text => "error with configuration: " ++ text
  | noEncryption =>
    "error occurred while attempting to establish a TLS connection: server does not support TLS"

inductive TargetFault where
  | notUrl (cause : Url.UrlError)
  | unsupportedScheme (scheme : String)
  | noDatabase
  | invalidTable (name : String)
  | invalidFlag (value : String)
  | other (text : String)
  deriving DecidableEq, Repr

def TargetFault.text : TargetFault → String
  | notUrl cause => cause.message
  | unsupportedScheme s => "unsupported scheme '" ++ s ++ "', expected postgres or postgresql"
  | noDatabase => "missing database name"
  | invalidTable name => "invalid migrations table name '" ++ name ++ "'"
  | invalidFlag value => "invalid boolean '" ++ value ++ "' for x-multi-statement"
  | other text => text

inductive DatabaseError where
  | connection (cause : ConnectionError)
  | source (cause : SourceError)
  | invalidUrl (fault : TargetFault)
  /-- A version that the version table cannot hold. -/
  | invalidVersion (version : Int)
  /-- The step to the recorded version did not finish. -/
  | dirty (version : Int)
  | lockTimeout (after : Duration)
  | closed
  | stopped
  deriving DecidableEq, Repr

namespace DatabaseError

def message : DatabaseError → String
  | connection cause => "Database error: " ++ cause.message
  | source cause => cause.message
  | invalidUrl fault => "Invalid database URL: " ++ fault.text
  | invalidVersion v => "Invalid schema version " ++ toString v
  | dirty v => "Database is dirty at version " ++ toString v ++ ", force a version first"
  | lockTimeout d => "Timed out acquiring migration lock after " ++ Duration.render d
  | closed => "connection is already closed"
  | stopped => "Migration stopped before reaching the target version"

/-- The same error in the words of engines; what only this database has is given by its text. -/
def toEngine : DatabaseError → EngineError
  | source (.io cause) => .io cause
  | source (.invalid fault) => .source fault.text
  | source (.missing v) => .missingMigration v
  | lockTimeout d => .lockTimeout d
  | stopped => .stopped
  | e => .database e.message

end DatabaseError

end Stairway.Postgres
