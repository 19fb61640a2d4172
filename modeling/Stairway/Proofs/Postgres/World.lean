import Stairway.Proofs.Postgres.Server

/-!
# Several sessions on one server

A `World` is one server with any number of sessions that migrate the same database through the same
version table. A `Move` is one thing that happens: a session begins an operation, or its program
comes as far as the next answer, so the operations of different sessions interleave at every single
statement. Everything that the sessions cannot foresee comes with the move: the time, whether the
server refuses the statement, and what the directory has to say of a script, which may change at any
time.

Beside what the program knows a `Seat` keeps a `Standing`, and which rows have been recorded since
its operation first read one. What an operation does to the schema is noted as a `Deed`: a script
that is sent and a version that is written, with what was known at that moment. None of these notes
is seen by a program.

Sessions neither come nor go here; a session that dies is one that is not moved any more.
-/

namespace Stairway.Postgres

/-! ## Operations -/

/-- What the owner of a session can have it do, one at a time. -/
inductive Job where
  | operate (kind : Transition) (desired : Nat) (remaining : Option Duration)
  | ensureTable
  | close (isBenign : String → Bool)

namespace Job

def program (p : Plant) : Job → Program interface Unit
  | operate kind desired remaining =>
    (p.engine.operation kind desired remaining).bind fun _ => .done ()
  | ensureTable => p.ensureTable.run.bind fun _ => .done ()
  | close isBenign => (p.engine.closing isBenign).bind fun _ => .done ()

/-- What a job is to do to the schema: nothing, but for operations. -/
def kind : Job → Transition
  | operate kind _ _ => kind
  | _ => .assert

def desired : Job → Nat
  | operate _ desired _ => desired
  | _ => 0

end Job

/-! ## Deeds -/

/-- What is done to the schema. -/
inductive Act where
  /-- A script is sent. -/
  | ran (d : Direction) (version : Nat)
  /-- A step writes a version. -/
  | marked (before after : Option Row)
  /-- A rollback marks a dirty version clean. -/
  | mended (before after : Option Row)
  deriving DecidableEq

/-- What an operation did, and what it did it on. -/
structure Deed where
  client : ClientId
  kind : Transition
  desired : Nat
  /-- The row that the operation read first, without the lock. -/
  first : Option Row
  /-- What has been recorded since, and by whom; after a second reading nothing is added. -/
  between : List (ClientId × Option Row)
  /-- Who holds the lock at the moment. -/
  holders : List ClientId
  act : Act
  deriving DecidableEq

/-- The row that is recorded once a row has been read and others were recorded. -/
def lastRow (first : Option Row) (between : List (ClientId × Option Row)) : Option Row :=
  (between.getLast?.map (·.2)).getD first

/-- The rows that an operation takes note of, once these have been published: those between its
first reading and its second. -/
def noted (s : Standing) (between news : List (ClientId × Option Row)) :
    List (ClientId × Option Row) :=
  if s.reads.length = 1 then between ++ news else between

/-! ## Sessions and their server -/

structure Seat where
  session : Session := {}
  job : Job := .ensureTable
  rest : Program interface Unit := .done ()
  heard : Standing := {}
  between : List (ClientId × Option Row) := []

/-- What a session meets with when it goes on. -/
structure Weather where
  now : Instant := 0
  /-- What the server says if it refuses the statement. -/
  refusal : Option String := none
  /-- What reading a script leads to. -/
  content : Except IoError String := .ok ""
  /-- Whether the context is done. -/
  cut : Bool := false

structure World where
  server : Server := {}
  seats : ClientId → Seat := fun _ => {}
  deeds : List Deed := []

inductive Move where
  | begin (i : ClientId) (job : Job)
  | advance (i : ClientId) (e : Weather)
  | requestStop (i : ClientId)

namespace Seat

/-- Answers a request. A rollback is never refused. -/
def answer (seat : Seat) (server : Server) (e : Weather) :
    (r : Request) → r.Answer × Session × Server
  | .readScript .. => (e.content, seat.session, server)
  | .statement .rollback =>
    seat.session.serve { server with verdicts := [] } e.now (.statement .rollback)
  | r => seat.session.serve { server with verdicts := [(seat.session.client, e.refusal)] } e.now r

/-- The row that an answer publishes. -/
def published (seat : Seat) : (r : Request) → r.Answer → Option (Option Row)
  | .statement .commit, .ok _ =>
    match seat.heard.draft with
    | .row r => some r
    | _ => none
  | _, _ => none

/-- What an answer completes, where this row is recorded. -/
def act (seat : Seat) (recorded : Option Row) : (r : Request) → r.Answer → Option Act
  | .statement (.script ..), _ => seat.heard.script.map fun (d, version) => .ran d version
  | r, a =>
    (seat.published r a).map fun after =>
      if seat.heard.reads.length = 1 then .mended recorded after else .marked recorded after

/-- Rows are published. -/
def told (news : List (ClientId × Option Row)) (seat : Seat) : Seat :=
  { seat with between := noted seat.heard seat.between news }

end Seat

namespace World

variable (p : Plant)

/-- The row of the version table, as it was last committed. -/
def recorded (w : World) : Option Row := w.server.rowIn p.table

/-- Who holds the lock, once for each time. -/
def holders (w : World) : List ClientId :=
  (w.server.locks.filter fun l => l.2 = p.target.lockKey).map (·.1)

def put (w : World) (i : ClientId) (seat : Seat) : World :=
  { w with seats := fun j => if j = i then seat else w.seats j }

section Put

variable {p} {w : World} {i j : ClientId} {seat : Seat}

@[simp] theorem put_server : (w.put i seat).server = w.server := rfl

@[simp] theorem put_recorded : (w.put i seat).recorded p = w.recorded p := rfl

@[simp] theorem put_seats_self : (w.put i seat).seats i = seat := if_pos rfl

@[simp] theorem put_seats_of_ne (h : j ≠ i) : (w.put i seat).seats j = w.seats j := if_neg h

end Put

/-- The deed that an answer completes. -/
def deed? (w : World) (i : ClientId) (r : Request) (a : r.Answer) : Option Deed :=
  let seat := w.seats i
  (seat.act (w.recorded p) r a).map fun act =>
    { client := i, kind := seat.job.kind, desired := seat.job.desired
      first := seat.heard.reads.headD none, between := seat.between, holders := w.holders p, act }

/-- A session asks a request and is answered. -/
def ask (w : World) (i : ClientId) (e : Weather) (r : Request)
    (next : r.Answer → Program interface Unit) :
    World :=
  let seat := w.seats i
  let result := seat.answer w.server e r
  let news := (seat.published r result.1).toList.map fun row => (i, row)
  let asked :=
    { seat with session := result.2.1, rest := next result.1, heard := seat.heard.hear r result.1 }
  { server := result.2.2
    seats := fun j => if j = i then asked.told news else (w.seats j).told news
    deeds := w.deeds ++ (w.deed? p i r result.1).toList }

/-- A session goes on as far as the next answer. -/
def advance (w : World) (i : ClientId) (e : Weather) : World :=
  let seat := w.seats i
  match seat.rest with
  | .done _ => w
  | .crash => w
  | .pause _ next => w.put i { seat with rest := next }
  | .race _ next => w.put i { seat with rest := next e.cut }
  | .ask r next => w.ask p i e r next

/-- A session begins what it is to do, if it is not at something else. -/
def start (w : World) (i : ClientId) (job : Job) : World :=
  let seat := w.seats i
  match seat.rest with
  | .done _ | .crash =>
    w.put i { seat with job, rest := job.program p, heard := seat.heard.fresh, between := [] }
  | _ => w

/-- Asks a session for a graceful stop. -/
def stop (w : World) (i : ClientId) : World :=
  let seat := w.seats i
  w.put i { seat with session := { seat.session with stop := seat.session.stop.request.2 } }

def move (w : World) : Move → World
  | .begin i job => w.start p i job
  | .advance i e => w.advance p i e
  | .requestStop i => w.stop i

def run (w : World) (moves : List Move) : World := moves.foldl (move p) w

/-- Sessions that have just connected to a server: nobody holds a lock or is in a transaction. -/
def opening (server : Server) (sessions : ClientId → Session) : World :=
  { server := { server with locks := [], transactions := [] }
    seats := fun i => { session := { sessions i with client := i, owesRollback := false } } }

end World

end Stairway.Postgres
