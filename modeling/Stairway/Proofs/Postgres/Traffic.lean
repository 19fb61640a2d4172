import Stairway.Proofs.Postgres.Conduct

/-!
# Calls of many clients on one server

A `Traffic` is one server with any number of clients, each at one call of its engine or at none. A
`Turn` is one thing that happens: a client begins a call, or its program comes as far as the next
answer, so the calls interleave at every single statement, and a client that is not moved again has
died where it stood. Time, refusals of the server and what a script holds come with the turn; any
statement may be refused, a rollback too.

The `journal` keeps every request with its answer, in the order in which the server saw them, and
the version tables before and after. Theorems about many clients speak of the journal; what the
clients know (`Bearings`) stays in the proofs.
-/

namespace Stairway.Postgres

/-! ## Answers -/

namespace Session

/-- Answers a request where the server may refuse it. -/
def answer (s : Session) (server : Server) (e : Weather) :
    (r : Request) → r.Answer × Session × Server
  | .readScript .. => (e.content, s, server)
  | r => s.serve { server with verdicts := [(s.client, e.refusal)] } e.now r

/-- Whether a session has neither a connection nor anything left of an earlier one. -/
def isUnused (s : Session) : Bool := !s.isConnected && !s.owesRollback

end Session

/-- Whether the row that is read is the one that is recorded. -/
def Request.Truthful (p : Plant) (recorded : Option Row) : (r : Request) → r.Answer → Prop
  | .statement (.selectRow t), .ok row => t = p.table → row = recorded
  | _, _ => True

/-- All that an answer does. -/
structure Replied (p : Plant) (i : ClientId) (s : Bearings) (server : Server) (r : Request)
    (result : r.Answer × Session × Server) :
    Prop extends Effect p i s.toStanding server r result where
  expected : s.Expects r result.1
  tables : (∀ q, r = .statement q → q.touches = false) → result.2.2.tables = server.tables
  recorded : result.2.2.rowIn p.table =
    (s.toStanding.published r result.1).getD (server.rowIn p.table)
  truthful : (∀ t, r = .statement (.selectRow t) → s.draft = .closed) →
    r.Truthful p (server.rowIn p.table) result.1

section Answers

variable {p : Plant} {c : Call} {i : ClientId} {session : Session} {server : Server} {s : Bearings}

theorem replied_refused (ht : Tied p i session s.toStanding server) (q : Statement)
    (verdicts : List (ClientId × Option String)) (err : ConnectionError) :
    Replied p i s server (.statement q)
      (.error err, session, Server.spoil { server with verdicts } i q) where
  toEffect := effect_refused ht q verdicts err
  expected := trivial
  tables _ := Server.spoil_tables q
  recorded := by
    rw [Server.rowIn, Server.spoil_tables]
    cases q <;> rfl
  truthful _ := by cases q <;> trivial

theorem replied_applied (ht : Tied p i session s.toStanding server) {q : Statement}
    (hq : s.toStanding.Proper p q) (verdicts : List (ClientId × Option String)) :
    Replied p i s server (.statement q) (.ok (Server.apply { server with verdicts } i q).1, session,
      (Server.apply { server with verdicts } i q).2) where
  toEffect := effect_applied ht hq verdicts
  expected := trivial
  tables h := Server.apply_tables (h q rfl)
  recorded := recorded_apply hq ht.draft
  truthful hclosed := by
    cases q with
    | selectRow t =>
      intro htable
      have hnone : server.transactions.lookup i = none := by
        have hmatches := ht.draft
        rw [hclosed t rfl] at hmatches
        exact hmatches
      rw [← htable]
      exact Server.rowOf_eq (s := { server with verdicts }) hnone
    | _ => trivial

def Request.isStatement : Request → Bool
  | .statement _ => true
  | _ => false

/-- An answer to anything but a statement says nothing of the server. -/
theorem replied_aside (ht : Tied p i session s.toStanding server) {r : Request}
    (hr : r.isStatement = false) {a : r.Answer} {session' : Session} {server' : Server}
    (hidle : server.Idle server') (hclient : session'.client = session.client)
    (howed : session'.owesRollback = (s.toStanding.hear r a).owesRollback)
    (expected : s.Expects r a) :
    Replied p i s server r (a, session', server') := by
  have hheard : (s.toStanding.hear r a).locks = s.locks ∧
      (s.toStanding.hear r a).draft = s.draft := by
    cases r with
    | statement q => cases hr
    | readScript => cases a <;> exact ⟨rfl, rfl⟩
    | _ => exact ⟨rfl, rfl⟩
  have hsilent : s.toStanding.published r a = none := by
    cases r with
    | statement q => cases hr
    | _ => rfl
  refine ⟨⟨⟨hclient.trans ht.client, howed, ?_, ?_⟩, hidle.frame, ?_⟩, expected,
    fun _ => hidle.tables, ?_, ?_⟩
  · rw [hidle.locks, hheard.1]
    exact ht.locks
  · rw [hidle.transactions, hheard.2]
    exact ht.draft
  · intro h
    rwa [Server.Exclusive, hidle.locks]
  · rw [hsilent, Server.rowIn, hidle.tables]
    rfl
  · cases r with
    | statement q => cases hr
    | _ => exact fun _ => trivial

/-- **Whatever an allowed request is answered**, what the session hears is true of the server. -/
theorem replied (ht : Tied p i session s.toStanding server) {r : Request} (hr : s.Allows p c r)
    (e : Weather) : Replied p i s server r (session.answer server e r) := by
  have hidle : ∀ verdicts, server.Idle { server with verdicts } := fun _ => ⟨rfl, rfl, rfl⟩
  cases r with
  | statement q =>
    simp only [Session.answer, Session.serve, Server.finish, ht.client, List.lookup_cons_self]
    cases e.refusal with
    | none => exact replied_applied ht hr.1 _
    | some text => exact replied_refused ht q _ _
  | connect o =>
    have howed : false = s.owesRollback := Eq.symm hr
    simp only [Session.answer, Session.serve, Session.connect]
    cases o.endpoint with
    | socket _ => exact replied_aside ht rfl (hidle _) rfl ht.owed trivial
    | network _ =>
      obtain ⟨hlocks, htransactions, htables⟩ := Server.idle_connect
        { server with verdicts := [(session.client, e.refusal)] } e.now
          (o.user.getD session.systemUser)
        (o.database.getD (o.user.getD session.systemUser))
          (o.password.getD "") o.encryption.isRequired
      exact replied_aside ht rfl ⟨hlocks, htransactions, htables⟩ rfl howed trivial
  | readScript d v path =>
    have howed : session.owesRollback =
        (s.toStanding.hear (.readScript d v path) e.content).owesRollback := by
      cases e.content <;> exact ht.owed
    exact replied_aside ht rfl ⟨rfl, rfl, rfl⟩ rfl howed trivial
  | oweRollback => exact replied_aside ht rfl (hidle _) rfl rfl trivial
  | takeOwedRollback => exact replied_aside ht rfl (hidle _) rfl rfl ht.owed
  | openSource | disconnect | isConnected | takeStop | requestStop | lockTimeout | setLockTimeout
  | now
  | log => exact replied_aside ht rfl (hidle _) rfl ht.owed trivial

end Answers

/-! ## Clients and their server -/

/-- One client: its session, and the call that it is at. -/
structure Line where
  session : Session := {}
  call : Call := .version
  rest : Program interface (Except EngineError Unit) := .done (.ok ())

/-- A request that has been answered, and the version tables before and after. -/
structure Entry where
  client : ClientId
  request : Request
  answer : request.Answer
  before : List (String × Option Row)
  after : List (String × Option Row)

/-- Whether a client is in a section of the lock, once all this has happened. -/
def inSection (key : Int) (i : ClientId) (journal : List Entry) : Bool :=
  journal.foldl (fun inside e => if e.client = i then e.request.section key inside e.answer
    else inside) false

theorem inSection_snoc (key : Int) (i : ClientId) (journal : List Entry) (e : Entry) :
    inSection key i (journal ++ [e]) =
      if e.client = i then e.request.section key (inSection key i journal) e.answer
      else inSection key i journal := by
  simp [inSection]

structure Traffic where
  server : Server := {}
  lines : ClientId → Line := fun _ => {}
  journal : List Entry := []

inductive Turn where
  | begin (i : ClientId) (call : Call)
  | advance (i : ClientId) (e : Weather)
  | requestStop (i : ClientId)

/-- Whether a turn begins no call that uses another lock than the plant of its client does. -/
def Turn.Suits (plants : ClientId → Plant) : Turn → Prop
  | begin i call => call.Suits (plants i)
  | _ => True

namespace Traffic

variable (plants : ClientId → Plant)

def put (w : Traffic) (i : ClientId) (line : Line) : Traffic :=
  { w with lines := fun j => if j = i then line else w.lines j }

/-- A client asks a request and is answered. -/
def ask (w : Traffic) (i : ClientId) (e : Weather) (r : Request)
    (next : r.Answer → Program interface (Except EngineError Unit)) : Traffic :=
  let line := w.lines i
  let result := line.session.answer w.server e r
  { server := result.2.2
    lines := fun j =>
      if j = i then { line with session := result.2.1, rest := next result.1 } else w.lines j
    journal := w.journal ++ [⟨i, r, result.1, w.server.tables, result.2.2.tables⟩] }

theorem ask_journal (w : Traffic) (i : ClientId) (e : Weather) (r : Request)
    (next : r.Answer → Program interface (Except EngineError Unit)) :
    (w.ask i e r next).journal = w.journal ++
      [⟨i, r, ((w.lines i).session.answer w.server e r).1, w.server.tables,
        (w.ask i e r next).server.tables⟩] :=
  rfl

/-- A client goes on as far as the next answer. -/
def advance (w : Traffic) (i : ClientId) (e : Weather) : Traffic :=
  let line := w.lines i
  match line.rest with
  | .done _ => w
  | .crash => w
  | .pause _ next => w.put i { line with rest := next }
  | .race _ next => w.put i { line with rest := next e.cut }
  | .ask r next => w.ask i e r next

/-- A client begins a call, if it is not at another; an engine is opened on a session of its own. -/
def start (w : Traffic) (i : ClientId) (call : Call) : Traffic :=
  let line := w.lines i
  match line.rest with
  | .done _ | .crash =>
    if !call.isOpening || line.session.isUnused then
      w.put i { line with call, rest := call.program (plants i) }
    else w
  | _ => w

/-- Asks a client's engine for a graceful stop. -/
def stop (w : Traffic) (i : ClientId) : Traffic :=
  let line := w.lines i
  w.put i { line with session := { line.session with stop := line.session.stop.request.2 } }

def turn (w : Traffic) : Turn → Traffic
  | .begin i call => w.start plants i call
  | .advance i e => w.advance i e
  | .requestStop i => w.stop i

def run (w : Traffic) (turns : List Turn) : Traffic := turns.foldl (turn plants) w

/-- Clients that come to a server on which nobody holds a lock or is in a transaction. -/
def opening (server : Server) (sessions : ClientId → Session) : Traffic where
  server := { server with locks := [], transactions := [] }
  lines i := { session := { sessions i with client := i, owesRollback := false } }

end Traffic

end Stairway.Postgres
