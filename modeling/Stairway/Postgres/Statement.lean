/-!
# Statements

Everything that an engine says to its server, as data. `Statement.sql` is the text that is sent,
`Statement.bound` are the values sent along with it, and `Statement.Reply` is the kind of answer. A
script is sent as it stands, and is one statement unless it is said to hold several.
-/

namespace Stairway.Postgres

/-- The row of a version table: version and dirty flag. -/
structure Row where
  version : Int
  dirty : Bool
  deriving DecidableEq, Repr

inductive Statement where
  /-- Takes the advisory lock if nobody else has it, without waiting. -/
  | tryLock (key : Int)
  | unlock (key : Int)
  | createTable (table : String)
  | selectRow (table : String)
  | beginTransaction
  | truncate (table : String)
  | insert (table : String) (row : Row)
  | commit
  | rollback
  /-- A script. One that may hold several statements goes as plain text, another one is prepared as
  one statement first. -/
  | script (multi : Bool) (text : String)
  deriving DecidableEq, Repr

/-- A value that is sent beside the text of a statement. -/
inductive Bound where
  | number (value : Int)
  | truth (value : Bool)
  deriving DecidableEq, Repr

namespace Statement

@[reducible] def Reply : Statement → Type
  | tryLock _ => Bool
  | unlock _ => Bool
  | selectRow _ => Option Row
  | _ => Unit

/-- A table's name, quoted. -/
def quoted (table : String) : String := "\"" ++ table ++ "\""

def sql : Statement → String
  | tryLock _ => "SELECT pg_try_advisory_lock($1)"
  | unlock _ => "SELECT pg_advisory_unlock($1)"
  | createTable t =>
    "CREATE TABLE IF NOT EXISTS " ++ quoted t
      ++ " (version BIGINT NOT NULL PRIMARY KEY, dirty BOOLEAN NOT NULL)"
  | selectRow t => "SELECT version, dirty FROM " ++ quoted t ++ " LIMIT 1"
  | beginTransaction => "BEGIN"
  | truncate t => "TRUNCATE " ++ quoted t
  | insert t _ => "INSERT INTO " ++ quoted t ++ " (version, dirty) VALUES ($1, $2)"
  | commit => "COMMIT"
  | rollback => "ROLLBACK"
  | script _ text => text

def bound : Statement → List Bound
  | tryLock key => [.number key]
  | unlock key => [.number key]
  | insert _ row => [.number row.version, .truth row.dirty]
  | _ => []

end Statement

end Stairway.Postgres
