import Stairway.Postgres.Error
import Stairway.Postgres.Statement

/-!
# Servers

What several clients see of one PostgreSQL server: version tables with at most one row, advisory
locks that clients hold, and transactions, whose writes nobody else sees before they are committed.
Scripts succeed and change nothing that is kept here.

`Server.arrive` is a statement's arrival and `Server.finish` its effect and answer; `Server.execute`
is both at once. What a server is told to do besides, so that the clients' ways out can be tried, is
in `Rule` and in its counters: statements that fail or take long, locks that others seem to hold,
connections that are turned away, or a network that leads nowhere.
-/

namespace Stairway.Postgres

/-- A client by its number. -/
abbrev ClientId := Nat

/-- What happens to statements whose text holds `pattern`: the `nth` of them, or each if that is 0,
takes `delay`, and fails if there is a message. -/
structure Rule where
  pattern : String
  nth : Nat := 0
  failure : Option String := none
  delay : Duration := 0
  /-- How many such statements have come. -/
  seen : Nat := 0
  deriving DecidableEq

/-- Whether one text stands somewhere in another. -/
def occursIn (pattern : List Char) : List Char → Bool
  | [] => pattern.isEmpty
  | c :: rest => pattern.isPrefixOf (c :: rest) || occursIn pattern rest

def Rule.counts (r : Rule) (sql : String) : Bool := occursIn r.pattern.toList sql.toList

/-- A rule after a statement has come. -/
def Rule.count (sql : String) (r : Rule) : Rule :=
  if r.counts sql then { r with seen := r.seen + 1 } else r

/-- Whether a rule that has counted a statement is about this one. -/
def Rule.strikes (r : Rule) (sql : String) : Bool := r.counts sql && (r.nth = 0 || r.nth = r.seen)

/-- What a client does that a server takes note of. -/
inductive Event where
  | connected (user database : String) (password : Option String)
  | statement (s : Statement)
  deriving DecidableEq

/-- A write that waits for its transaction: the row that a table is left with. -/
abbrev Write := String × Option Row

structure Server where
  /-- Version tables by name; one without a row says that nothing was ever recorded. -/
  tables : List (String × Option Row) := []
  /-- Advisory locks: who holds which. A client may hold one several times. -/
  locks : List (ClientId × Int) := []
  /-- Writes of the transactions that are open. -/
  transactions : List (ClientId × List Write) := []
  rules : List Rule := []
  /-- How many more tries for a lock are told that somebody else has it. -/
  deniedLocks : Nat := 0
  refusedConnections : Nat := 0
  asksPassword : Bool := false
  /-- Whether there is a way to the server. -/
  isReachable : Bool := true
  /-- What breaks when a client leaves, if anything does. -/
  leaveFault : Option IoError := none
  /-- What has come from clients, and when, in order. -/
  events : List (Instant × Event) := []
  /-- What the rules say of the statements that have arrived and are not answered. -/
  verdicts : List (ClientId × Option String) := []

namespace Server

/-! ## Tables -/

/-- Puts a row, or none, into a table. -/
def setRow (tables : List (String × Option Row)) (w : Write) : List (String × Option Row) :=
  if (tables.lookup w.1).isSome then tables.map fun (t, r) => if t = w.1 then (t, w.2) else (t, r)
  else tables ++ [w]

/-- The row of a table as a client sees it. -/
def rowOf (s : Server) (client : ClientId) (table : String) : Option Row :=
  let own := ((s.transactions.lookup client).getD []).reverse.lookup table
  (own.or (s.tables.lookup table)).join

/-- Writes a row, at once or in the client's transaction. -/
def write (s : Server) (client : ClientId) (w : Write) : Server :=
  match s.transactions.lookup client with
  | none => { s with tables := setRow s.tables w }
  | some ws =>
    { s with
      transactions := s.transactions.map fun (c, old) =>
        if c = client then (c, ws ++ [w]) else (c, old) }

/-- Ends a client's transaction without its writes. -/
def endTransaction (s : Server) (client : ClientId) : Server :=
  { s with transactions := s.transactions.filter (·.1 ≠ client) }

/-- Ends a client's transaction with its writes. -/
def publish (s : Server) (client : ClientId) : Server :=
  let ws := (s.transactions.lookup client).getD []
  { s.endTransaction client with tables := ws.foldl setRow s.tables }

/-! ## Statements -/

/-- Whether another client holds a lock. -/
def isHeldByOther (s : Server) (client : ClientId) (key : Int) : Bool :=
  s.locks.any fun (c, k) => c ≠ client && k = key

/-- A statement that succeeds: its answer and its effect. -/
def apply (s : Server) (client : ClientId) : (q : Statement) → q.Reply × Server
  | .tryLock key =>
    if 0 < s.deniedLocks then (false, { s with deniedLocks := s.deniedLocks - 1 })
    else if s.isHeldByOther client key then (false, s)
    else (true, { s with locks := s.locks ++ [(client, key)] })
  | .unlock key =>
    if s.locks.contains (client, key) then (true, { s with locks := s.locks.erase (client, key) })
    else (false, s)
  | .createTable t =>
    ((), if (s.tables.lookup t).isSome then s else { s with tables := s.tables ++ [(t, none)] })
  | .selectRow t => (s.rowOf client t, s)
  | .beginTransaction =>
    ((), { s.endTransaction client with transactions := s.transactions ++ [(client, [])] })
  | .truncate t => ((), s.write client (t, none))
  | .insert t row => ((), s.write client (t, some row))
  | .commit => ((), s.publish client)
  | .rollback => ((), s.endTransaction client)
  | .script .. => ((), s)

/-- What a statement that fails leaves behind: nothing, but a commit that fails ends its
transaction. -/
def spoil (s : Server) (client : ClientId) : Statement → Server
  | .commit => s.endTransaction client
  | _ => s

/-! ## Arrival and answer -/

/-- A statement arrives: how long it takes. It is remembered, and so is what the rules say of it. -/
def arrive (s : Server) (now : Instant) (client : ClientId) (q : Statement) : Duration × Server :=
  let rules := s.rules.map (Rule.count q.sql)
  let striking := rules.filter (Rule.strikes · q.sql)
  let delay := striking.foldl (fun d r => d + r.delay) 0
  (delay, { s with
    rules
    events := s.events ++ [(now, .statement q)]
    verdicts := s.verdicts.filter (·.1 ≠ client) ++ [(client, striking.findSome? (·.failure))] })

/-- A statement that has arrived is answered. -/
def finish (s : Server) (client : ClientId) (q : Statement) :
    Except ConnectionError q.Reply × Server :=
  match (s.verdicts.lookup client).join with
  | some text => (.error (.refused text), s.spoil client q)
  | none =>
    let (reply, s) := s.apply client q
    (.ok reply, s)

/-- A statement that is answered as soon as it arrives. -/
def execute (s : Server) (now : Instant) (client : ClientId) (q : Statement) :
    Except ConnectionError q.Reply × Server :=
  (s.arrive now client q).2.finish client q

/-! ## Connections -/

/-- What a server says when it turns a connection away. -/
def startingUp : String := "the database system is starting up"

/-- A client asks for a connection. -/
def connect (s : Server) (now : Instant) (user database password : String) (encrypted : Bool) :
    Except ConnectionError Unit × Server :=
  if !s.isReachable then (.error (.communication .networkUnreachable), s)
  else if encrypted then (.error .noEncryption, s)
  else
    let event : Event := .connected user database (if s.asksPassword then some password else none)
    let s := { s with events := s.events ++ [(now, event)] }
    if 0 < s.refusedConnections then
      (.error (.refused startingUp), { s with refusedConnections := s.refusedConnections - 1 })
    else (.ok (), s)

/-- A client ends its connection. -/
def disconnect (s : Server) : Except ConnectionError Unit :=
  match s.leaveFault with
  | some cause => .error (.communication cause)
  | none => .ok ()

end Server

end Stairway.Postgres
