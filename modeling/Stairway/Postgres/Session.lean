import Stairway.Migrations.Open
import Stairway.Postgres.Options
import Stairway.Postgres.Server
import Stairway.Program
import Stairway.Stop

/-!
# Sessions

A session is one client's side of a connection, with what its engine keeps: how long it waits for
locks, the stop slot, and whether it owes the server a rollback for a transaction that it gave up.
`Request` lists what an engine asks of its session; every statement is a request of its own, so
other sessions may come in between any two of them.

`Session.serve` answers a request and changes the session and the server. `Site` is one session with
its server: a statement arrives there, gives way to others even if it takes no time, and is answered
when its time is over.
-/

namespace Stairway.Postgres

structure Session where
  client : ClientId := 0
  files : Files.Tree := {}
  /-- How the person who runs the program is called; a connection without a user is theirs. -/
  systemUser : String := "root"
  isConnected : Bool := false
  owesRollback : Bool := false
  lockTimeout : Duration := defaultLockTimeout
  stop : StopSlot := {}
  log : List String := []

inductive Request where
  | openSource (url : String)
  | connect (options : ConnectionOptions)
  /-- Ends the connection, if there is one. -/
  | disconnect
  | isConnected
  | statement (q : Statement)
  /-- Says that the transaction under way is given up. -/
  | oweRollback
  /-- Whether a rollback is owed; it no longer is. -/
  | takeOwedRollback
  /-- Reads the script that moves a version in a direction. -/
  | readScript (direction : Direction) (version : Nat) (path : String)
  | takeStop
  | requestStop
  | lockTimeout
  | setLockTimeout (d : Duration)
  | now
  | log (line : String)

@[reducible] def Request.Answer : Request → Type
  | openSource _ => Except SourceError Source
  | connect _ => Except ConnectionError Unit
  | disconnect => Option (Except ConnectionError Unit)
  | isConnected => Bool
  | statement q => Except ConnectionError q.Reply
  | oweRollback => Unit
  | takeOwedRollback => Bool
  | readScript .. => Except IoError String
  | takeStop => Bool
  | requestStop => Bool
  | lockTimeout => Duration
  | setLockTimeout _ => Unit
  | now => Instant
  | log _ => Unit

abbrev interface : Interface := ⟨Request, Request.Answer⟩

namespace Session

/-- Asks the server for a connection. -/
def connect (s : Session) (server : Server) (now : Instant) (o : ConnectionOptions) :
    Except ConnectionError Unit × Session × Server :=
  match o.endpoint with
  | .socket _ => (.error (.communication .notFound), s, server)
  | .network _ =>
    let user := o.user.getD s.systemUser
    let (r, server) :=
      server.connect now user (o.database.getD user) (o.password.getD "") o.encryption.isRequired
    (r, { s with isConnected := r.isOk, owesRollback := false }, server)

/-- Ends the connection. It is gone even if that goes wrong. -/
def disconnect (s : Session) (server : Server) : Option (Except ConnectionError Unit) × Session :=
  (if s.isConnected then some server.disconnect else none, { s with isConnected := false })

/-- Answers a request; a statement has arrived at the server before. -/
def serve (s : Session) (server : Server) (now : Instant) :
    (r : Request) → r.Answer × Session × Server
  | .statement q =>
    let (reply, server) := server.finish s.client q
    (reply, s, server)
  | .connect o => s.connect server now o
  | .openSource url => (Source.openUrl s.files url, s, server)
  | .disconnect =>
    let (parting, s) := s.disconnect server
    (parting, s, server)
  | .isConnected => (s.isConnected, s, server)
  | .oweRollback => ((), { s with owesRollback := true }, server)
  | .takeOwedRollback => (s.owesRollback, { s with owesRollback := false }, server)
  | .readScript _ _ path => (s.files.readText path, s, server)
  | .takeStop => (s.stop.take.1, { s with stop := s.stop.take.2 }, server)
  | .requestStop => (s.stop.request.1, { s with stop := s.stop.request.2 }, server)
  | .lockTimeout => (s.lockTimeout, s, server)
  | .setLockTimeout d => ((), { s with lockTimeout := d }, server)
  | .now => (now, s, server)
  | .log line => ((), { s with log := s.log ++ [line] }, server)

end Session

/-- One session and its server. -/
structure Site where
  session : Session := {}
  server : Server := {}

namespace Site

/-- A statement is on its way from the moment it is sent; anything else is answered at once. -/
def arrive (s : Site) (now : Instant) : Request → Option Duration × Site
  | .statement q =>
    let (delay, server) := s.server.arrive now s.session.client q
    (some delay, { s with server })
  | _ => (none, s)

def serve (s : Site) (now : Instant) (r : Request) : r.Answer × Site :=
  let (a, session, server) := s.session.serve s.server now r
  (a, ⟨session, server⟩)

instance : Machine interface Site where
  arrive r now s := s.arrive now r
  answer r now s := s.serve now r

end Site

end Stairway.Postgres
