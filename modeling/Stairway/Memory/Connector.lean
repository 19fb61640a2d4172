import Stairway.Memory.Engine

/-!
# Connecting to an engine in memory

A connector holds one store and hands it out once, after it has refused as many times as it was told
to. It remembers the addresses of every attempt.
-/

namespace Stairway.Memory

structure Connector where
  /-- The store, until it is handed out. -/
  store : Option Store := none
  refusals : Nat := 0
  delay : Duration := 0
  /-- Source and database URL of every attempt. -/
  attempts : List (String × String) := []
  faults : Faults := {}
  log : List String := []

inductive Connector.Request where
  | fault
  | connect (sourceUrl databaseUrl : String)
  | log (line : String)

@[reducible] def Connector.Request.Answer : Connector.Request → Type
  | fault => Option Fault
  | connect _ _ => Except EngineError Store
  | log _ => Unit

namespace Connector

abbrev interface : Interface := ⟨Request, Request.Answer⟩

/-- An attempt is remembered when it arrives, and takes the connector's delay. -/
def arrive (c : Connector) : Request → Option Duration × Connector
  | .connect source database =>
    (if c.delay = 0 then none else some c.delay,
      { c with attempts := c.attempts ++ [(source, database)] })
  | _ => (none, c)

def serve (c : Connector) : (r : Request) → r.Answer × Connector
  | .fault => (c.faults.at .connect, c)
  | .connect _ _ =>
    if 0 < c.refusals then
      (.error (.database "connection refused"), { c with refusals := c.refusals - 1 })
    else
      match c.store with
      | some store => (.ok store, { c with store := none })
      | none => (.error (.database "fake engine already handed out"), c)
  | .log line => ((), { c with log := c.log ++ [line] })

instance : Machine interface Connector where
  arrive r _ c := c.arrive r
  answer r _ c := c.serve r

/-- Opens the store; a fault planned for connecting takes the place of a success, so the store has
been handed out by then. -/
def connect (sourceUrl databaseUrl : String) : Program interface (Except EngineError Store) := do
  match ← Program.request (I := interface) (.connect sourceUrl databaseUrl) with
  | .error e => pure (.error e)
  | .ok store =>
    match ← Program.request (I := interface) .fault with
    | some .crash => Program.crash
    | some (.error e) => pure (.error e)
    | none => pure (.ok store)

end Connector

end Stairway.Memory
