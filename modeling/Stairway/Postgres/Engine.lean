import Stairway.Postgres.Lock
import Stairway.Postgres.Target
import Stairway.Text.CharClass

/-!
# The PostgreSQL engine

The recorded version is the one row of a version table; -1 stands for no version, and so does a
table without a row. A migration runs the steps of a plan one after the other, each between two
writes of the table: the version that the step leads to, dirty, and the same version clean. A table
that is dirty therefore names the step that did not finish.

Opening, migrating and forcing hold the lock; reading the version does not.
-/

namespace Stairway.Postgres

/-- What an engine works with, once it is open: where its scripts are and what it migrates. -/
structure Plant where
  source : Source
  target : Target

namespace Plant

variable (p : Plant)

def table : String := String.ofList p.target.table

/-! ## The version table -/

/-- The recorded value that means no version. -/
def nilVersion : Int := -1

/-- A version as the table holds it, in 64 bits with a sign. -/
def recorded : Option Nat → Int
  | none => nilVersion
  | some v => toBigint v

/-- What a row says. A dirty row without a version was left by undoing the first migration. -/
def ofRow : Option Row → Option SchemaVersion
  | none => none
  | some row =>
    if 0 ≤ row.version then some ⟨row.version.toNat, row.dirty⟩
    else if row.dirty then some ⟨0, true⟩
    else none

def readVersion : Work (Option SchemaVersion) := do
  return ofRow (← send (.selectRow p.table))

/-- Whether a version is written as a row; a clean one that stands for none is not. -/
def hasRow (version : Int) (dirty : Bool) : Bool := 0 ≤ version || dirty

/-- What happens between the two ends of the transaction that writes a version. -/
def replaceRow (version : Int) (dirty : Bool) : Work Unit := do
  send (.truncate p.table)
  if hasRow version dirty then send (.insert p.table ⟨version, dirty⟩)
  send .commit

/-- Writes a version in one transaction, which is given up if anything in it fails. -/
def writeVersion (version : Int) (dirty : Bool) : Work Unit := do
  send .beginTransaction
  match ← (p.replaceRow version dirty).attempt with
  | .ok () => return ()
  | .error e =>
    Work.ask .oweRollback
    throw e

/-! ## Scripts -/

/-- Whether a script holds nothing but blanks. -/
def isBlank (text : String) : Bool := text.toList.all Text.blanks.has

def readScript (d : Direction) (version : Nat) : Work String := do
  let script ← Work.get .source (p.source.script d version)
  Work.get (.source ∘ .io) (← Work.ask (.readScript d version script.path))

/-- Runs a script; one that is blank is not sent. The address says whether it may hold several
statements. -/
def runScript (text : String) : Work Unit :=
  if isBlank text then pure () else send (.script p.target.multiStatement text)

/-! ## Migrating -/

def finished : Step → String
  | .up v => "Applied migration " ++ toString v
  | .down v _ => "Reverted migration " ++ toString v

/-- Takes one step. -/
def takeStep (s : Step) : Work Unit := do
  let text ← p.readScript s.direction s.version
  p.writeVersion (recorded s.target) true
  p.runScript text
  p.writeVersion (recorded s.target) false
  Work.ask (.log (finished s))

/-- Takes steps in order, unless a stop is requested before one. -/
def takeSteps : List Step → Work Unit
  | [] => pure ()
  | s :: rest => do
    if ← Work.ask .takeStop then
      Work.ask (.log "Stop requested, leaving schema at the last completed step")
      throw .stopped
    p.takeStep s
    takeSteps rest

/-- What migrating does while it holds the lock. -/
def migrateLocked (version : Nat) : Work Unit := do
  let current ← p.readVersion
  if let some c := current then
    if c.dirty then throw (.dirty (toBigint c.version))
  let steps ← Work.get .source (p.source.plan (current.map (·.version)) version)
  p.takeSteps steps

/-- An engine that has been closed does nothing more. -/
def requireConnection : Work Unit := do
  if !(← Work.ask .isConnected) then throw .closed

def version : Work (Option SchemaVersion) := do
  requireConnection
  p.readVersion

def migrateTo (version : Nat) : Work Unit := do
  requireConnection
  locked p.target.lockKey (p.migrateLocked version)

def force (version : Int) : Work Unit := do
  if version < nilVersion then throw (.invalidVersion version)
  requireConnection
  locked p.target.lockKey (p.writeVersion version false)
  Work.ask (.log ("Forced schema version " ++ toString version))

/-- Makes sure that there is a version table. -/
def ensureTable : Work Unit := do
  requireConnection
  locked p.target.lockKey (send (.createTable p.table))

/-! ## As an engine -/

/-- The end of the work, in the words of engines. -/
def inEngineWords {α : Type} (w : Work α) : Program interface (Except EngineError α) :=
  w.run.bind fun r => .done (r.mapError DatabaseError.toEngine)

/-- What a close says of the database: that there was no connection, or what its end failed with. -/
def closeError : Option (Except ConnectionError Unit) → Option EngineError
  | some (.ok ()) => none
  | some (.error e) => some (DatabaseError.connection e).toEngine
  | none => some DatabaseError.closed.toEngine

def engine : Engine interface where
  version := inEngineWords p.version
  migrateTo v := inEngineWords (p.migrateTo v)
  force v := inEngineWords (p.force v)
  close := do
    let parting ← Program.request (I := interface) .disconnect
    pure { database := closeError parting }
  defaultLockTimeout := pure Stairway.defaultLockTimeout
  setLockTimeout d := Program.request (I := interface) (.setLockTimeout d)
  requestStop := Program.request (I := interface) .requestStop
  log line := Program.request (I := interface) (.log line)

/-- The engine as shown to a person. -/
def debug (s : Session) : String :=
  Text.record "PgEngine"
    [("source", Text.quotedPath p.source.root), ("target", p.target.debug),
      ("connected", Text.truth s.isConnected),
      ("lock_timeout", Duration.render s.lockTimeout)] false

end Plant

/-! ## Opening -/

/-- Reads the source and the address, connects, and makes sure that there is a version table. -/
def openPlant (sourceUrl databaseUrl : String) : Work Plant := do
  let source ← Work.get .source (← Work.ask (.openSource sourceUrl))
  let target ← Work.get .invalidUrl (Target.parse databaseUrl)
  let options ← Work.get .connection (ConnectionOptions.ofUrl target.url)
  Work.get .connection (← Work.ask (.connect options))
  Plant.ensureTable ⟨source, target⟩
  return ⟨source, target⟩

/-- Opening, in the words of engines. -/
def connect (sourceUrl databaseUrl : String) : Program interface (Except EngineError Plant) :=
  Plant.inEngineWords (openPlant sourceUrl databaseUrl)

end Stairway.Postgres
