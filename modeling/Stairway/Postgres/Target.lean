import Stairway.Postgres.Error
import Stairway.Postgres.LockKey
import Stairway.Text.Quoted
import Stairway.Url.Parser

/-!
# Addresses of databases

An address is a URL that also says how to migrate: query keys that begin with `x-` are for the
engine and never reach the server. `Target.parse` reads them, takes them out, and leaves all other
pairs in their order. Of a key that is given twice the last value counts, but every value is
checked.
-/

namespace Stairway.Postgres

structure Target where
  /-- The address without what was for the engine. -/
  url : Url
  database : List Char
  table : List Char
  /-- Whether a script is sent as it is, so that it may hold several statements. -/
  multiStatement : Bool
  deriving DecidableEq

namespace Target

def defaultTable : List Char := "schema_migrations".toList

/-- What the engine's own keys begin with. -/
def engineMark : List Char := ['x', '-']

def tableKey : List Char := "x-migrations-table".toList

def flagKey : List Char := "x-multi-statement".toList

/-- A letter or underscore, then at most 62 letters, digits and underscores. -/
def isIdentifier : List Char → Bool
  | [] => false
  | c :: rest =>
    (c.isAlpha || c == '_') && rest.all (fun d => d.isAlphanum || d == '_') && rest.length ≤ 62

def flag? (value : List Char) : Option Bool :=
  if value = "true".toList || value = "1".toList then some true
  else if value = "false".toList || value = "0".toList then some false
  else none

/-- Whether a pair of the query is for the engine. -/
def isForEngine (pair : List Char × List Char) : Bool := engineMark.isPrefixOf pair.1

/-- What the pairs of a query say to the engine: the table, the flag. -/
structure Options where
  table : List Char := defaultTable
  multiStatement : Bool := false
  deriving DecidableEq

def Options.read (o : Options) (pair : List Char × List Char) : Except TargetFault Options :=
  if pair.1 = tableKey then
    if isIdentifier pair.2 then .ok { o with table := pair.2 }
    else .error (.invalidTable (String.ofList pair.2))
  else if pair.1 = flagKey then
    match flag? pair.2 with
    | some b => .ok { o with multiStatement := b }
    | none => .error (.invalidFlag (String.ofList pair.2))
  else .ok o

/-- A URL with these pairs as its query, and with none if there are no pairs. -/
def withOnlyPairs (u : Url) (pairs : List (List Char × List Char)) : Url :=
  if pairs.isEmpty then u.withoutQuery else { u with query := some (Url.Form.encodePairs pairs) }

def ofUrl (u : Url) : Except TargetFault Target := do
  if u.scheme ≠ "postgres".toList && u.scheme ≠ "postgresql".toList then
    throw (.unsupportedScheme (String.ofList u.scheme))
  let database := u.path.dropWhile (· == '/')
  if database.isEmpty then throw .noDatabase
  let options ← u.pairs.foldlM Options.read {}
  return ⟨withOnlyPairs u (u.pairs.filter (!isForEngine ·)), database, options.table,
    options.multiStatement⟩

/-- Reads an address. -/
def parse (text : String) : Except TargetFault Target :=
  match Url.parse text with
  | .ok u => ofUrl u
  | .error cause => .error (.notUrl cause)

def lockKey (t : Target) : Int := Postgres.lockKey t.database t.table

/-- The address as shown to a person, without what could hold a password. -/
def debug (t : Target) : String :=
  Text.record "ConnectTarget"
    [("database", Text.quoted (String.ofList t.database)),
      ("migrations_table", Text.quoted (String.ofList t.table)),
      ("multi_statement", Text.truth t.multiStatement)] true

end Target

end Stairway.Postgres
