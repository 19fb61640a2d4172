import Stairway.Proofs.Postgres.World

/-!
# What an answer does

A session is `Tied` to its server if what it has heard is true of it: whether it holds the lock,
what its transaction would leave recorded, and what it owes. A statement that is `Proper` keeps it
so and leaves the other clients' locks and transactions as they were (`Effect`); this asks nothing
of the protocol that a session keeps to. `answered` follows one request that `etiquette` allows to
its answer and says everything that changes: the recorded row is the old one unless the answer
publishes another.
-/

namespace Stairway.Postgres

/-- What a session has heard is true of the server. -/
structure Tied (p : Plant) (i : ClientId) (session : Session) (heard : Standing) (server : Server) :
    Prop where
  client : session.client = i
  owed : session.owesRollback = heard.owesRollback
  locks : server.locks.count (i, p.target.lockKey) = heard.locks
  draft : heard.draft.Matches p.table (server.transactions.lookup i)

/-- Whether a statement is about the session's own lock, and writes within a transaction. -/
def Standing.Proper (p : Plant) (s : Standing) : Statement → Prop
  | .tryLock key | .unlock key => key = p.target.lockKey
  | .truncate t | .insert t _ => t = p.table ∧ s.draft ≠ .closed
  | .commit => ∃ r, s.draft = .row r
  | _ => True

/-- The row that an answer publishes. -/
def Standing.published (s : Standing) : (r : Request) → r.Answer → Option (Option Row)
  | .statement .commit, .ok _ =>
    match s.draft with
    | .row r => some r
    | _ => none
  | _, _ => none

/-- What an answer does to the session that is answered, and what it leaves alone. -/
structure Effect (p : Plant) (i : ClientId) (s : Standing) (server : Server) (r : Request)
    (result : r.Answer × Session × Server) : Prop where
  tied : Tied p i result.2.1 (s.hear r result.1) result.2.2
  frame : server.Frame i result.2.2
  exclusive : server.Exclusive → result.2.2.Exclusive

/-- How a session goes on when the version table holds a row and an answer publishes another, or
none. -/
inductive Learns (s : Standing) (recorded : Option Row) :
    Option (Option Row) → Standing → Prop where
  | published (row : Option Row) (hlocked : 0 < s.locks) :
    Learns s recorded (some row) { s with draft := .closed, known := some row, hasWritten := true }
  | read : Learns s recorded none
      { s with
        reads := s.reads ++ [recorded], known := if 0 < s.locks then some recorded else none }
  | other (t : Standing) (hreads : t.reads = s.reads) (hnew : t.hasWritten = s.hasWritten)
    (hknown : ∀ k, t.known = some k → s.known = some k ∧ s.locks ≤ t.locks) :
      Learns s recorded none t

theorem Learns.locked {s t : Standing} {recorded : Option Row} {news : Option (Option Row)}
    (h : Learns s recorded news t) (hnews : news.isSome) : 0 < s.locks := by
  cases h with
  | published row hlocked => exact hlocked
  | read => cases hnews
  | other => cases hnews

/-- An answer that says nothing of the version table. -/
theorem Learns.nothing {s t : Standing} {recorded : Option Row} (hreads : t.reads = s.reads)
    (hnew : t.hasWritten = s.hasWritten) (hknown : t.known = s.known) (hlocks : t.locks = s.locks) :
    Learns s recorded none t :=
  .other t hreads hnew fun _ hk => ⟨hknown ▸ hk, Nat.le_of_eq hlocks.symm⟩

/-- What an answer does. -/
structure Answered (p : Plant) (i : ClientId) (seat : Seat) (server : Server) (r : Request)
    (result : r.Answer × Session × Server) : Prop where
  expected : seat.heard.Expects r result.1
  tied : Tied p i result.2.1 (seat.heard.hear r result.1) result.2.2
  frame : server.Frame i result.2.2
  exclusive : server.Exclusive → result.2.2.Exclusive
  recorded : result.2.2.rowIn p.table = (seat.published r result.1).getD (server.rowIn p.table)
  learns : Learns seat.heard (server.rowIn p.table) (seat.published r result.1)
    (seat.heard.hear r result.1)

/-! ## Statements and their effect -/

section Effects

variable {p : Plant} {i : ClientId} {session : Session} {server : Server} {s : Standing}

theorem locks_apply {q : Statement} (hq : s.Proper p q)
    (h : server.locks.count (i, p.target.lockKey) = s.locks) :
    (server.apply i q).2.locks.count (i, p.target.lockKey) =
      (s.hearReply q (server.apply i q).1).locks := by
  cases q with
  | tryLock key =>
    have hkey : key = p.target.lockKey := hq
    rw [hkey]
    simp only [Server.apply]
    split
    · exact h
    · split
      · exact h
      · simp [Standing.hearReply, List.count_append, h]
  | unlock key =>
    have hkey : key = p.target.lockKey := hq
    rw [hkey]
    simp only [Server.apply]
    split
    · simp [Standing.hearReply, List.count_erase_self, h]
    · exact h
  | createTable t =>
    simp only [Server.apply]
    split <;> exact h
  | truncate t =>
    rw [Server.apply, Server.write_locks]
    exact h
  | insert t row =>
    rw [Server.apply, Server.write_locks]
    exact h
  | commit =>
    rw [Standing.hearReply, Standing.publish]
    split <;> exact h
  | selectRow | beginTransaction | rollback | script => exact h

theorem Draft.Matches.open {draft : Draft} {table : String} {tx : Option (List Write)}
    (h : draft.Matches table tx) (hopen : draft ≠ .closed) : ∃ ws, tx = some ws := by
  cases draft with
  | closed => exact absurd rfl hopen
  | blank => exact h
  | row r =>
    obtain ⟨ws, hws⟩ := h
    exact ⟨_, hws⟩

theorem draft_apply {q : Statement} (hq : s.Proper p q)
    (h : s.draft.Matches p.table (server.transactions.lookup i)) :
    (s.hearReply q (server.apply i q).1).draft.Matches p.table
      ((server.apply i q).2.transactions.lookup i) := by
  cases q with
  | tryLock key =>
    simp only [Server.apply]
    split
    · exact h
    · split <;> exact h
  | unlock key =>
    simp only [Server.apply]
    split <;> exact h
  | createTable t =>
    simp only [Server.apply]
    split <;> exact h
  | beginTransaction =>
    refine ⟨(server.transactions.lookup i).getD [], ?_⟩
    simp only [Server.apply, List.lookup_append]
    cases server.transactions.lookup i <;> simp
  | truncate t =>
    obtain ⟨rfl, hopen⟩ := hq
    obtain ⟨ws, hws⟩ := h.open hopen
    exact ⟨ws, Server.write_lookup _ hws⟩
  | insert t row =>
    obtain ⟨rfl, hopen⟩ := hq
    obtain ⟨ws, hws⟩ := h.open hopen
    exact ⟨ws, Server.write_lookup _ hws⟩
  | commit =>
    obtain ⟨r, hdraft⟩ := hq
    simp only [Standing.hearReply, Standing.publish, hdraft]
    exact Server.lookup_filter_self
  | rollback => exact Server.lookup_filter_self
  | selectRow | script => exact h

/-- A statement that is refused changes nothing, but a commit ends its transaction. -/
theorem effect_refused (ht : Tied p i session s server) (q : Statement)
    (verdicts : List (ClientId × Option String)) (err : ConnectionError) :
    Effect p i s server (.statement q)
      (.error err, session, Server.spoil { server with verdicts } i q) := by
  cases q with
  | commit =>
    exact ⟨⟨ht.client, ht.owed, ht.locks, Server.lookup_filter_self⟩,
      ⟨fun _ hj => Server.lookup_filter_ne hj, fun _ _ _ => rfl⟩, id⟩
  | _ =>
    exact ⟨⟨ht.client, ht.owed, ht.locks, ht.draft⟩, ⟨fun _ _ => rfl, fun _ _ _ => rfl⟩, id⟩

theorem effect_applied (ht : Tied p i session s server) {q : Statement} (hq : s.Proper p q)
    (verdicts : List (ClientId × Option String)) :
    Effect p i s server (.statement q) (.ok (Server.apply { server with verdicts } i q).1, session,
      (Server.apply { server with verdicts } i q).2) where
  tied :=
    ⟨ht.client, ht.owed.trans (Standing.hearReply_owed q _).symm, locks_apply hq ht.locks,
      draft_apply hq ht.draft⟩
  frame := ⟨(Server.frame_apply q).transactions, (Server.frame_apply q).locks⟩
  exclusive h := Server.Exclusive.apply (s := { server with verdicts }) h q

/-- Nothing is recorded but what is published. -/
theorem recorded_apply {q : Statement} (hq : s.Proper p q)
    (h : s.draft.Matches p.table (server.transactions.lookup i)) :
    (server.apply i q).2.rowIn p.table =
      (s.published (.statement q) (.ok (server.apply i q).1)).getD (server.rowIn p.table) := by
  by_cases hcommit : q = .commit
  · subst hcommit
    obtain ⟨r, hdraft⟩ := hq
    rw [hdraft] at h
    obtain ⟨ws, hws⟩ := h
    simp only [Standing.published, hdraft]
    exact Server.rowIn_publish hws
  · have hsilent : s.published (.statement q) (.ok (server.apply i q).1) = none := by
      cases q <;> first | rfl | exact absurd rfl hcommit
    rw [hsilent]
    refine Server.rowIn_apply hcommit fun hwrite => ?_
    cases q with
    | truncate t => exact h.open hq.2
    | insert t row => exact h.open hq.2
    | _ => cases hwrite

end Effects

section Answers

variable {p : Plant} {kind : Transition} {desired : Nat} {i : ClientId} {seat : Seat}
  {server : Server}

/-- A statement is refused, but a rollback never is, or it is answered and has its effect. -/
theorem answer_statement (seat : Seat) (server : Server) (e : Weather) (q : Statement) : ∃ verdicts,
    (q ≠ .rollback ∧ ∃ err, seat.answer server e (.statement q) =
      (.error err, seat.session, Server.spoil { server with verdicts } seat.session.client q)) ∨
    seat.answer server e (.statement q) =
      (.ok (Server.apply { server with verdicts } seat.session.client q).1, seat.session,
        (Server.apply { server with verdicts } seat.session.client q).2) := by
  by_cases hq : q = .rollback
  · subst hq
    exact ⟨[], .inr rfl⟩
  · refine ⟨[(seat.session.client, e.refusal)], ?_⟩
    have hanswer : seat.answer server e (.statement q) = seat.session.serve
        { server with verdicts := [(seat.session.client, e.refusal)] } e.now (.statement q) := by
      cases q <;> first | rfl | exact absurd rfl hq
    rw [hanswer]
    simp only [Session.serve, Server.finish, List.lookup_cons_self]
    cases e.refusal with
    | none => exact .inr rfl
    | some text => exact .inl ⟨hq, _, rfl⟩

/-! ## What the session learns -/

variable {s : Standing}

theorem AllowsStatement.proper {q : Statement}
    (hq : s.AllowsStatement p kind desired q) : s.Proper p q := by
  cases q with
  | commit =>
    obtain ⟨-, r, hdraft, -⟩ := hq
    exact ⟨r, hdraft⟩
  | tryLock | unlock | truncate | insert => exact hq
  | _ => trivial

variable (server) in
theorem learns_apply {q : Statement} (hq : s.AllowsStatement p kind desired q)
    (h : s.draft.Matches p.table (server.transactions.lookup i)) (hs : seat.heard = s) :
    Learns s (server.rowIn p.table) (seat.published (.statement q) (.ok (server.apply i q).1))
      (s.hearReply q (server.apply i q).1) := by
  cases q with
  | tryLock key =>
    refine .other _ ?_ ?_ ?_
    all_goals
      simp only [Standing.hearReply]
      split
    · rfl
    · rfl
    · rfl
    · rfl
    · exact fun k hk => ⟨hk, Nat.le_succ _⟩
    · exact fun k hk => ⟨hk, Nat.le_refl _⟩
  | unlock key =>
    refine .other _ ?_ ?_ ?_
    all_goals
      simp only [Standing.hearReply]
      split
    · rfl
    · rfl
    · rfl
    · rfl
    · intro k hk
      cases hk
    · exact fun k hk => ⟨hk, Nat.le_refl _⟩
  | selectRow t =>
    obtain ⟨rfl, hclosed⟩ := hq
    have hnone : server.transactions.lookup i = none := by
      rw [hclosed] at h
      exact h
    have hrow : (server.apply i (.selectRow p.table)).1 = server.rowIn p.table :=
      Server.rowOf_eq hnone
    rw [hrow]
    exact .read
  | commit =>
    obtain ⟨hlocked, r, hdraft, -⟩ := hq
    simp only [Seat.published, hs, Standing.hearReply, Standing.publish, hdraft]
    exact .published r hlocked
  | createTable | beginTransaction | truncate | insert | rollback | script =>
    exact .nothing rfl rfl rfl rfl

/-! ## Whole answers -/

theorem answered_refused (ht : Tied p i seat.session seat.heard server) {q : Statement}
    (hq : q ≠ .rollback) (verdicts : List (ClientId × Option String)) (err : ConnectionError) :
    Answered p i seat server (.statement q)
      (.error err, seat.session, Server.spoil { server with verdicts } i q) := by
  have heffect := effect_refused ht q verdicts err
  refine ⟨?_, heffect.tied, heffect.frame, heffect.exclusive, ?_, ?_⟩
  · cases q with
    | rollback => exact absurd rfl hq
    | _ => trivial
  · cases q <;> rfl
  · cases q <;> exact .nothing rfl rfl rfl rfl

theorem answered_applied (ht : Tied p i seat.session seat.heard server) {q : Statement}
    (hq : seat.heard.AllowsStatement p kind desired q)
    (verdicts : List (ClientId × Option String)) :
    Answered p i seat server (.statement q) (.ok (Server.apply { server with verdicts } i q).1,
      seat.session, (Server.apply { server with verdicts } i q).2) where
  expected := by cases q <;> trivial
  tied := (effect_applied ht (AllowsStatement.proper hq) verdicts).tied
  frame := (effect_applied ht (AllowsStatement.proper hq) verdicts).frame
  exclusive := (effect_applied ht (AllowsStatement.proper hq) verdicts).exclusive
  recorded := recorded_apply (AllowsStatement.proper hq) ht.draft
  learns := learns_apply { server with verdicts } hq ht.draft rfl

/-- **Whatever an allowed request is answered**, it is what the session expects, and what it hears
is true of the server. -/
theorem answered (ht : Tied p i seat.session seat.heard server) {r : Request}
    (hr : seat.heard.Allows p kind desired r) (e : Weather) :
    Answered p i seat server r (seat.answer server e r) := by
  cases r with
  | statement q =>
    obtain ⟨verdicts, ⟨hq, err, h⟩ | h⟩ := answer_statement seat server e q
    · rw [h, ht.client]
      exact answered_refused ht hq verdicts err
    · rw [h, ht.client]
      exact answered_applied ht hr verdicts
  | connect o => exact hr.elim
  | readScript d v path =>
    refine ⟨trivial, ?_, .refl i server, id, rfl, ?_⟩
    · simp only [Seat.answer]
      cases e.content <;> exact ⟨ht.client, ht.owed, ht.locks, ht.draft⟩
    · simp only [Seat.answer]
      cases e.content <;> exact .nothing rfl rfl rfl rfl
  | oweRollback =>
    exact ⟨trivial, ⟨ht.client, rfl, ht.locks, ht.draft⟩, ⟨fun _ _ => rfl, fun _ _ _ => rfl⟩, id,
      rfl, .nothing rfl rfl rfl rfl⟩
  | takeOwedRollback =>
    exact ⟨ht.owed, ⟨ht.client, rfl, ht.locks, ht.draft⟩, ⟨fun _ _ => rfl, fun _ _ _ => rfl⟩, id,
      rfl, .nothing rfl rfl rfl rfl⟩
  | openSource | disconnect | isConnected | takeStop | requestStop | lockTimeout | setLockTimeout
  | now | log =>
    exact ⟨trivial, ⟨ht.client, ht.owed, ht.locks, ht.draft⟩, ⟨fun _ _ => rfl, fun _ _ _ => rfl⟩,
      id, rfl, .nothing rfl rfl rfl rfl⟩

end Answers

end Stairway.Postgres
