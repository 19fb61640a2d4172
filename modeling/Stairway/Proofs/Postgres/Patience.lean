import Stairway.Controller.Schedule
import Stairway.Proofs.Controller.Operations
import Stairway.Proofs.Postgres.Balance
import Stairway.Proofs.Postgres.Polling

/-!
# How long an operation waits for the lock

An operation under a deadline sets the engine's lock timeout once, to what is left when it gets the
engine. Each call that needs the lock then waits for that long from its own beginning: `Timely` says
so of what the operation asks, and `operation_timely` of every operation, on a server that answers
by any playbook. Where the operation gets the engine before its deadline, a call keeps to the
deadline but for as long as it came after the operation had begun. An assertion never waits, an
apply at most once, and a rollback at most twice, so a dirty schema can be rolled back by a lock
that is granted long after the deadline (`second_wait_late`).

`Patient` is put together along a program: it goes from a session that waits for a given time and
owes nothing to another one.
-/

namespace Stairway.Postgres

open Program (hearing)

/-! ## Waiting -/

/-- Whether a call begins to wait for the lock, by asking for how long it shall. -/
def Request.isWait : Request → Bool
  | .lockTimeout => true
  | _ => false

theorem isWait_of_isPolling {r : Request} (h : r.isPolling = true) : r.isWait = false := by
  cases r with
  | lockTimeout => cases h
  | _ => rfl

/-- When the call that asks for the lock began to wait, once an exchange has been made. -/
def waitingSince (before : Option Instant) (e : Exchange interface) : Option Instant :=
  if e.request.isWait then some e.sent else if e.request.isPolling then before else none

/-- Every try is made by a call that waits, no later than the limit for when that call began to. -/
def Timely (limit : Instant → Instant) : Option Instant → List (Exchange interface) → Prop
  | _, [] => True
  | before, e :: rest =>
    (e.request.isTry = true → ∃ t, before = some t ∧ e.sent ≤ limit t) ∧
      Timely limit (waitingSince before e) rest

/-- How many calls wait for the lock. -/
def waits (asked : List (Exchange interface)) : Nat := asked.countP (·.request.isWait)

/-- Nothing that is asked has to do with waiting for a lock. -/
def Idle (asked : List (Exchange interface)) : Prop :=
  ∀ e ∈ asked, e.request.isTry = false ∧ e.request.isWait = false

section Timely

variable {limit limit' : Instant → Instant} {asked more : List (Exchange interface)}

theorem timely_append : ∀ {before : Option Instant}, Timely limit before (asked ++ more) ↔
    Timely limit before asked ∧ Timely limit (asked.foldl waitingSince before) more := by
  induction asked with
  | nil => exact (and_iff_right trivial).symm
  | cons e rest ih => exact (and_congr_right fun _ => ih).trans and_assoc.symm

theorem Timely.mono (hle : ∀ t, limit t ≤ limit' t) :
    ∀ {before : Option Instant}, Timely limit before asked → Timely limit' before asked := by
  induction asked with
  | nil => exact id
  | cons e rest ih =>
    exact fun h => ⟨fun htry => (h.1 htry).imp fun t => And.imp_right (Nat.le_trans · (hle t)),
      ih h.2⟩

theorem Idle.timely (h : Idle asked) : ∀ before, Timely limit before asked := by
  induction asked with
  | nil => exact fun _ => trivial
  | cons e rest ih =>
    obtain ⟨he, hrest⟩ := List.forall_mem_cons.1 h
    refine fun before => ⟨fun htry => ?_, ih hrest _⟩
    rw [he.1] at htry
    cases htry

theorem Idle.waits (h : Idle asked) : waits asked = 0 :=
  List.countP_eq_zero.2 fun e he => by simp [h e he]

/-- While a call asks for the lock, its tries are judged by when it began to wait. -/
theorem timely_polling (limit : Instant → Instant) {began : Instant}
    (h : ∀ e ∈ asked, e.request.isPolling = true ∧
      (e.request.isTry = true → e.sent ≤ limit began)) :
    Timely limit (some began) asked ∧ asked.foldl waitingSince (some began) = some began := by
  induction asked with
  | nil => exact ⟨trivial, rfl⟩
  | cons e rest ih =>
    obtain ⟨⟨hpolling, hintime⟩, hrest⟩ := List.forall_mem_cons.1 h
    have hbegan : waitingSince (some began) e = some began := by
      unfold waitingSince
      rw [isWait_of_isPolling hpolling, hpolling]
      rfl
    obtain ⟨htimely, hlast⟩ := ih hrest
    refine ⟨⟨fun htry => ⟨began, rfl, hintime htry⟩, ?_⟩, ?_⟩
    · rw [hbegan]
      exact htimely
    · rw [List.foldl_cons, hbegan]
      exact hlast

/-- Who never waits makes no try. -/
theorem Timely.noTries (h : Timely limit none asked) (hnone : waits asked = 0) :
    tries asked = [] := by
  induction asked with
  | nil => rfl
  | cons e rest ih =>
    obtain ⟨hwait, hrest⟩ := List.forall_mem_cons.1 (List.countP_eq_zero.1 hnone)
    have htry : e.request.isTry = false := by
      rw [Bool.eq_false_iff]
      rintro htry
      obtain ⟨t, ⟨⟩, -⟩ := h.1 htry
    have hnext : waitingSince none e = none := by
      unfold waitingSince
      rw [if_neg hwait, ite_self]
    rw [tries_other htry]
    exact ih (hnext ▸ h.2) (List.countP_eq_zero.2 hrest)

end Timely

/-! ## Patience -/

/-- What is asked keeps to the time that is left, whatever was asked before, and few calls wait. -/
structure Patience (left : Duration) (k : Nat) (asked : List (Exchange interface)) : Prop where
  timely : ∀ before, Timely (· + left) before asked
  waits : waits asked ≤ k

theorem Idle.patience {left : Duration} {asked : List (Exchange interface)} (h : Idle asked) :
    Patience left 0 asked :=
  ⟨h.timely, Nat.le_of_eq h.waits⟩

theorem Patience.append {left : Duration} {k n : Nat} {asked more : List (Exchange interface)}
    (h : Patience left k asked) (h' : Patience left n more) :
    Patience left (k + n) (asked ++ more) where
  timely before := timely_append.2 ⟨h.timely before, h'.timely _⟩
  waits := by
    refine Nat.le_trans (Nat.le_of_eq List.countP_append) ?_
    exact Nat.add_le_add h.waits h'.waits

/-- A session that waits for locks as long as `left` and owes nothing. -/
structure Ready (left : Duration) (s : Scripted) : Prop where
  dial : s.session.lockTimeout = left
  paid : s.session.owesRollback = false

/-- A program that may fail, started where `start` holds, is patient, and leaves a session that is
ready. -/
def Patient {ε α : Type} (start : Scripted → Prop) (left : Duration) (k : Nat)
    (p : Program interface (Except ε α)) : Prop :=
  ∀ now s, start s → Patience left k (p.transcript now s) ∧
    ∀ a, (p.finish now s).outcome = .finished (.ok a) → Ready left (p.finish now s).machine

section Patient

variable {ε ε' α β : Type} {start : Scripted → Prop} {left : Duration} {k n : Nat}

theorem Patient.andThen {x : ExceptT ε (Program interface) α}
    {f : α → ExceptT ε (Program interface) β} (hx : Patient start left k x.run)
    (hf : ∀ a, Patient (Ready left) left n (f a).run) :
    Patient start left (k + n) (x >>= f).run := by
  intro now s hs
  obtain ⟨hasked, hready⟩ := hx now s hs
  rcases ho : (x.run.finish now s).outcome with (e | a) | _
  · obtain ⟨hfinish, htranscript⟩ := Program.andThen_error (f := f) ho
    rw [hfinish, htranscript]
    exact ⟨⟨hasked.timely, Nat.le_trans hasked.waits (Nat.le_add_right _ _)⟩, nofun⟩
  · obtain ⟨hfinish, htranscript⟩ := Program.andThen_ok (f := f) ho
    obtain ⟨hasked', hready'⟩ :=
      hf a (x.run.finish now s).now (x.run.finish now s).machine (hready a ho)
    rw [hfinish, htranscript]
    exact ⟨hasked.append hasked', hready'⟩
  · obtain ⟨hfinish, htranscript⟩ := Program.andThen_crashed (f := f) ho
    rw [hfinish, htranscript]
    exact ⟨⟨hasked.timely, Nat.le_trans hasked.waits (Nat.le_add_right _ _)⟩, nofun⟩

theorem Patient.mono {p : Program interface (Except ε α)} (h : Patient start left k p)
    (hle : k ≤ n) :
    Patient start left n p := by
  intro now s hs
  obtain ⟨hasked, hready⟩ := h now s hs
  exact ⟨⟨hasked.timely, Nat.le_trans hasked.waits hle⟩, hready⟩

/-- An error in other words. -/
theorem Patient.mapError {p : Program interface (Except ε α)} (h : Patient start left k p)
    (g : ε → ε') :
    Patient start left k (p.bind fun r => .done (r.mapError g)) := by
  intro now s hs
  obtain ⟨hasked, hready⟩ := h now s hs
  rw [Program.finish_bindDone, Program.transcript_bindDone]
  refine ⟨hasked, fun a ha => ?_⟩
  rcases ho : (p.finish now s).outcome with (e | b) | _
  · rw [ho] at ha
    cases ha
  · exact hready b ho
  · rw [ho] at ha
    cases ha

theorem patient_throw (e : ε) :
    Patient (Ready left) left 0 (throw e : ExceptT ε (Program interface) α).run :=
  fun _ _ _ => ⟨Idle.patience (List.forall_mem_nil _), nofun⟩

theorem patient_pure (a : α) :
    Patient (Ready left) left 0 (pure a : ExceptT ε (Program interface) α).run :=
  fun _ _ hs => ⟨Idle.patience (List.forall_mem_nil _), fun _ _ => hs⟩

end Patient

/-! ## What a session keeps -/

/-- What every answer to an allowed request keeps of a session is kept by a program that asks
nothing else. -/
theorem session_kept {R : Session → Prop} {ok : Request → Prop}
    (hserve : ∀ r now s, ok r → R s → R (s.serve {} now r).2.1) {α : Type}
    (p : Program interface α) :
    ∀ (now : Instant) (s : Scripted), (∀ e ∈ p.transcript now s, ok e.request) → R s.session →
      R (p.finish now s).machine.session := by
  have hwait : ∀ r now (s : Scripted), ok r → R s.session →
      R (Program.waitFor (I := interface) r now s).2.1.session := by
    intro r now s hr hs
    have hkept := hserve r now s.session hr hs
    cases r with
    | statement q => exact hs
    | _ => exact hkept
  induction p with
  | done a => exact fun now s _ => id
  | crash => exact fun now s _ => id
  | pause d next ih => exact fun now s => ih _ s
  | race d next ih => exact fun now s => ih _ _ s
  | ask r next ih =>
    intro now s h hs
    obtain ⟨hr, hrest⟩ := List.forall_mem_cons.1 h
    exact ih _ _ _ hrest (hwait r now s hr hs)

theorem serve_dial {left : Duration} (r : Request) (now : Instant) (s : Session)
    (hr : ∀ d, r ≠ .setLockTimeout d) (hs : s.lockTimeout = left) :
    (s.serve {} now r).2.1.lockTimeout = left := by
  cases r with
  | setLockTimeout d => exact absurd rfl (hr d)
  | connect o =>
    simp only [Session.serve, Session.connect]
    split <;> exact hs
  | _ => exact hs

theorem serve_paid (r : Request) (now : Instant) (s : Session) (hr : r ≠ .oweRollback)
    (hs : s.owesRollback = false) : (s.serve {} now r).2.1.owesRollback = false := by
  cases r with
  | oweRollback => exact absurd rfl hr
  | takeOwedRollback => rfl
  | connect o =>
    simp only [Session.serve, Session.connect]
    split
    · exact hs
    · rfl
  | _ => exact hs

/-- Nothing is owed once a program is over that begins by taking the debt, and makes none. -/
theorem settles {α : Type} {p : Program interface α}
    {Q : Outcome α → List (Exchange interface) → Prop}
    (htakes : ∃ next, p = .ask .takeOwedRollback next)
    (hobeys : p.Obeys (hearing fun r => r ≠ Request.oweRollback) Q []) (now : Instant)
    (s : Scripted) :
    (p.finish now s).machine.session.owesRollback = false := by
  have hasked := (hobeys.transcript now s).1
  obtain ⟨next, rfl⟩ := htakes
  exact session_kept serve_paid (next _) _ _ (List.forall_mem_cons.1 hasked).2 rfl

/-! ## The lock -/

/-- What is asked beside waiting for a lock. -/
def Request.IsMild (r : Request) : Prop :=
  r.isTry = false ∧ r.isWait = false ∧ ∀ d, r ≠ .setLockTimeout d

theorem Request.IsAside.mild {r : Request} (h : r.IsAside) : r.IsMild := by
  cases r with
  | statement q =>
    cases q with
    | tryLock key => exact h.elim
    | _ => exact ⟨rfl, rfl, nofun⟩
  | lockTimeout => exact h.elim
  | setLockTimeout d => exact h.elim
  | _ => exact ⟨rfl, rfl, nofun⟩

/-- The part that runs with the lock, and giving the lock back. -/
theorem withLock_mild (key : Int) {body : Work Unit} (hbody : body.Aside) (now : Instant)
    (s : Scripted) :
    ∀ e ∈ (withLock key body).run.transcript now s, e.request.IsMild := by
  have hrelease : (release key).Asks Request.IsMild :=
    asks_release ⟨rfl, rfl, nofun⟩ ⟨rfl, rfl, nofun⟩ ⟨rfl, rfl, nofun⟩ fun _ => ⟨rfl, rfl, nofun⟩
  exact ((asks_withLock (hbody.mono fun _ => Request.IsAside.mild) hrelease).ends now s).1

variable {left : Duration}

/-- Taking a lock, from asking for how long it is waited for. -/
theorem enter_patience (key : Int) (now : Instant) {s : Scripted} (hs : Ready left s) :
    Patience left 1 ((Work.ask .lockTimeout >>= acquire key).run.transcript now s) ∧
      ∀ e ∈ (Work.ask .lockTimeout >>= acquire key).run.transcript now s,
        ∀ d, e.request ≠ .setLockTimeout d := by
  obtain ⟨rfl, hpaid⟩ := hs
  have hasked : (Work.ask .lockTimeout >>= acquire key).run.transcript now s =
      ⟨.lockTimeout, now, s.session.lockTimeout, now⟩ ::
        (acquire key s.session.lockTimeout).run.transcript now s := rfl
  have hpolling := acquire_polling key s.session.lockTimeout now hpaid
  rw [hasked]
  generalize (acquire key s.session.lockTimeout).run.transcript now s = asked at hpolling
  have htimely := (timely_polling (· + s.session.lockTimeout) hpolling).1
  refine ⟨⟨fun before => ⟨nofun, htimely⟩, ?_⟩, ?_⟩
  · have hnone : waits asked = 0 := List.countP_eq_zero.2 fun e he => by
      simp [isWait_of_isPolling (hpolling e he).1]
    have hone : waits
        (⟨.lockTimeout, now, s.session.lockTimeout, now⟩ :: asked) = waits asked + 1 :=
      List.countP_cons_of_pos rfl
    rw [hnone] at hone
    exact Nat.le_of_eq hone
  · refine List.forall_mem_cons.2 ⟨nofun, fun e he d hd => ?_⟩
    have hno := (hpolling e he).1
    rw [hd] at hno
    cases hno

/-- A session that nobody sets keeps waiting for as long. -/
theorem dial_kept {α : Type} {p : Program interface α} {now : Instant} {s : Scripted}
    (h : ∀ e ∈ p.transcript now s, ∀ d, e.request ≠ .setLockTimeout d)
    (hs : s.session.lockTimeout = left) :
    (p.finish now s).machine.session.lockTimeout = left :=
  @session_kept _ (fun r => ∀ d, r ≠ Request.setLockTimeout d) serve_dial _ p now s h hs

/-- Giving the lock back leaves nothing owed. -/
theorem withLock_ready (key : Int) {body : Work Unit} (hbody : body.Aside) (now : Instant)
    {s : Scripted} (hs : s.session.lockTimeout = left) :
    Ready left ((withLock key body).run.finish now s).machine where
  dial := dial_kept (fun e he => (withLock_mild key hbody now s e he).2.2) hs
  paid := by
    obtain ⟨_, _, _, _, _, _, hmachine, _⟩ := withLock_ends key hbody now s
    rw [hmachine]
    exact settles ⟨_, rfl⟩ (hearing_release nofun nofun nofun (fun _ => nofun) []) _ _

/-- **A part that runs with the lock** waits for the lock as long as the session says, once. -/
theorem patient_locked {key : Int} {body : Work Unit} (hbody : body.Aside) :
    Patient (Ready left) left 1 (locked key body).run := by
  intro now s hs
  obtain ⟨hentered, hdial⟩ := enter_patience key now hs
  have hkept := dial_kept hdial hs.dial
  rw [locked_eq]
  generalize (Work.ask .lockTimeout >>= acquire key) = enter at hentered hkept
  rcases ho : (enter.run.finish now s).outcome with (e | _) | _
  · obtain ⟨hfinish, htranscript⟩ := Program.andThen_error (f := fun _ => withLock key body) ho
    rw [hfinish, htranscript]
    exact ⟨hentered, nofun⟩
  · obtain ⟨hfinish, htranscript⟩ := Program.andThen_ok (f := fun _ => withLock key body) ho
    have hidle : Idle ((withLock key body).run.transcript (enter.run.finish now s).now
        (enter.run.finish now s).machine) :=
      fun e he => ⟨(withLock_mild key hbody _ _ e he).1, (withLock_mild key hbody _ _ e he).2.1⟩
    rw [hfinish, htranscript]
    exact ⟨hentered.append hidle.patience, fun _ _ => withLock_ready key hbody _ hkept⟩
  · obtain ⟨hfinish, htranscript⟩ := Program.andThen_crashed (f := fun _ => withLock key body) ho
    rw [hfinish, htranscript]
    exact ⟨hentered, nofun⟩

/-! ## The engine -/

section Engine

variable {p : Plant}

/-- Work that has nothing to do with locks and owes nothing in the end. -/
theorem patient_aside {α : Type} {w : Work α} {start : Scripted → Prop} (hw : w.Aside)
    (hdial : ∀ s, start s → s.session.lockTimeout = left)
    (hpaid : ∀ now s a, start s → (w.run.finish now s).outcome = .finished (.ok a) →
      (w.run.finish now s).machine.session.owesRollback = false) : Patient start left 0 w.run := by
  intro now s hs
  have hmild := fun e he => ((hw.ends now s).1 e he).mild
  have hidle : Idle (w.run.transcript now s) := fun e he => ⟨(hmild e he).1, (hmild e he).2.1⟩
  have hkept := dial_kept (fun e he => (hmild e he).2.2) (hdial s hs)
  exact ⟨hidle.patience, fun a ha => ⟨hkept, hpaid now s a hs ha⟩⟩

theorem requireConnection_machine (now : Instant) (s : Scripted) :
    (Plant.requireConnection.run.finish now s).machine = s := by
  obtain ⟨playbook, session, answered⟩ := s
  obtain ⟨client, files, user, connected, owes, timeout, stop, log⟩ := session
  cases connected <;> rfl

theorem patient_requireConnection : Patient (Ready left) left 0 Plant.requireConnection.run := by
  have haside : Plant.requireConnection.Aside := asks_requireConnection Request.IsPlain.aside
  refine patient_aside haside (fun s hs => hs.dial) fun now s a hs _ => ?_
  rw [requireConnection_machine]
  exact hs.paid

theorem patient_log {ε : Type} (line : String) : Patient (Ready left) left 0
    (ExceptT.lift (Program.request (I := interface) (.log line)) : ExceptT ε
      (Program interface) Unit).run :=
  fun _ _ hs =>
    ⟨Idle.patience (List.forall_mem_singleton.2 ⟨rfl, rfl⟩), fun _ _ => ⟨hs.dial, hs.paid⟩⟩

theorem readVersion_settles (now : Instant) (s : Scripted) :
    (p.readVersion.run.finish now s).machine.session.owesRollback = false := by
  have hread : p.readVersion.Asks fun r => r ≠ .oweRollback :=
    (asks_send nofun nofun nofun).seq fun _ => .pure _
  exact settles ⟨_, rfl⟩ (hread []) now s

/-- Reading the version pays what is owed. -/
theorem patient_version : Patient (fun s => s.session.lockTimeout = left) left 0 p.version.run := by
  have hasks : p.version.Aside := (asks_requireConnection Request.IsPlain.aside).seq fun _ =>
    asks_readVersion Request.IsPlain.aside
  refine patient_aside hasks (fun s hs => hs) ?_
  intro now s a hs ha
  rcases ho : (Plant.requireConnection.run.finish now s).outcome with (e | _) | _
  · rw [Plant.version, (Program.andThen_error ho).1] at ha
    cases ha
  · rw [Plant.version, (Program.andThen_ok ho).1]
    exact readVersion_settles _ _
  · rw [Plant.version, (Program.andThen_crashed ho).1] at ha
    cases ha

theorem patient_migrateTo (v : Nat) : Patient (Ready left) left 1 (p.migrateTo v).run := by
  have hlocked : Patient (Ready left) left 1 (locked p.target.lockKey (p.migrateLocked v)).run :=
    patient_locked aside_migrateLocked
  exact (patient_requireConnection.andThen fun _ => hlocked).mono (by decide)

theorem patient_force (v : Int) : Patient (Ready left) left 1 (p.force v).run := by
  unfold Plant.force
  split
  · exact (patient_throw _).mono (by decide)
  have hlocked : Patient (Ready left) left 1
      (locked p.target.lockKey (p.writeVersion v false)).run :=
    patient_locked (asks_writeVersion Request.IsPlain.aside)
  have hrest := patient_requireConnection.andThen fun _ => hlocked.andThen fun _ =>
    patient_log ("Forced schema version " ++ toString v)
  exact hrest.mono (by decide)

end Engine

/-! ## Operations -/

section Operations

variable (p : Plant)

theorem patient_info (line : String) : Patient (Ready left) left 0 (p.engine.info line).run :=
  patient_log line

theorem patient_current :
    Patient (fun s => s.session.lockTimeout = left) left 0 p.engine.current.run := by
  have hversion : Patient (fun s => s.session.lockTimeout = left) left 0
      (Attempt.ofEngine p.engine.version).run :=
    (patient_version.mapError DatabaseError.toEngine).mapError Failure.engine
  exact hversion.andThen fun _ => patient_pure _

theorem patient_migrate (v : Nat) :
    Patient (Ready left) left 1 (Attempt.ofEngine (p.engine.migrateTo v)).run :=
  ((patient_migrateTo v).mapError DatabaseError.toEngine).mapError Failure.engine

theorem patient_repair (v : Nat) : Patient (Ready left) left 1 (p.engine.repair v).run := by
  have hforce : Patient (Ready left) left 1 (Attempt.ofEngine (p.engine.force v)).run :=
    ((patient_force v).mapError DatabaseError.toEngine).mapError Failure.engine
  rw [Engine.repair_eq]
  refine ((patient_info p _).andThen fun _ => ?_).mono (Nat.le_of_eq (Nat.zero_add 1))
  split
  · exact (patient_throw _).mono (by decide)
  · exact hforce

theorem patient_lower (desired version : Nat) :
    Patient (Ready left) left 1 (p.engine.lower desired version).run := by
  unfold Engine.lower
  split
  · exact (patient_info p _).mono (by decide)
  · split
    · exact (patient_throw _).mono (by decide)
    · have hrest : Patient (Ready left) left (0 + (1 + 0)) _ := (patient_info p
        (toString (version - desired) ++ " migrations to be rolled back")).andThen fun _ =>
          (patient_migrate p desired).andThen fun _ =>
            patient_info p "Rolled back all migrations successfully"
      exact hrest

/-- How many calls of an operation may wait for the lock. -/
def mostWaits : Transition → Nat
  | .assert => 0
  | .apply => 1
  | .rollback => 2

theorem patient_perform (kind : Transition) (desired : Nat) :
    Patient (fun s => s.session.lockTimeout = left) left (mostWaits kind)
      (p.engine.perform kind desired).run := by
  cases kind with
  | assert =>
    simp only [Engine.perform, Engine.assertVersion_eq]
    refine ((patient_current p).andThen fun c => ?_).mono (k := 0 + 0) (by decide)
    split
    · exact patient_throw _
    · split
      · exact patient_throw _
      · split
        · exact patient_throw _
        · exact patient_info p _
  | apply =>
    simp only [Engine.perform, Engine.applyVersion_eq]
    refine ((patient_current p).andThen fun c => ?_).mono (k := 0 + 1) (by decide)
    split
    · exact (patient_throw _).mono (by decide)
    · split
      · exact (patient_info p _).mono (by decide)
      · split
        · exact (patient_throw _).mono (by decide)
        · have hrest : Patient (Ready left) left (0 + (1 + 0)) _ := (patient_info p
            (toString (desired - c.version) ++ " migrations to be applied")).andThen fun _ =>
              (patient_migrate p desired).andThen fun _ =>
                patient_info p "Applied all migrations successfully"
          exact hrest
  | rollback =>
    simp only [Engine.perform, Engine.rollbackVersion_eq]
    refine ((patient_current p).andThen fun c => ?_).mono (k := 0 + (1 + 1)) (by decide)
    refine Patient.andThen ?_ fun _ => patient_lower p _ _
    split
    · exact patient_repair p _
    · exact (patient_pure _).mono (by decide)

/-- What is left of a deadline, counted from later, goes beyond it by as much. -/
theorem add_left_le {deadline got : Nat} (h : got ≤ deadline) (t : Nat) :
    t + (deadline - got) ≤ deadline + (t - got) := by
  omega

/-- **How long an operation waits for the lock.** It gets the engine at `got`, under a deadline.
Each try for the lock is made no later than the time that was left then, counted from when the call
that makes it began to wait. If the deadline had not passed by then, a try comes after the deadline
by no more than its call began to wait after `got`. Few calls wait. -/
theorem operation_timely (p : Plant) (kind : Transition) (desired serial : Nat)
    (deadline got : Instant) (s : Scripted) :
    let body : Body interface := ⟨serial, some deadline, p.engine.operation kind desired⟩
    Timely (· + (deadline - got)) none ((body.start got).transcript got s) ∧
      (got ≤ deadline →
        Timely (fun t => deadline + (t - got)) none ((body.start got).transcript got s)) ∧
      waits ((body.start got).transcript got s) ≤ mostWaits kind ∧
      (kind = .assert → tries ((body.start got).transcript got s) = []) := by
  intro body
  generalize hleft : deadline - got = left
  obtain ⟨set, hset, hasked⟩ : ∃ set : Scripted, set.session.lockTimeout = left ∧
      (body.start got).transcript got s = ⟨.setLockTimeout left, got, (), got⟩ ::
        (Program.ensuring
          (p.engine.perform kind desired).run p.engine.restoreLockTimeout).transcript got set := by
    subst hleft
    exact ⟨_, rfl, rfl⟩
  have hperform := (patient_perform p kind desired got set hset).1
  have hrestore : ∀ now t, Idle (p.engine.restoreLockTimeout.transcript now (t : Scripted)) :=
    fun now t => List.forall_mem_singleton.2 ⟨rfl, rfl⟩
  have hbefore : Idle [⟨.setLockTimeout left, got, (), got⟩] :=
    List.forall_mem_singleton.2 ⟨rfl, rfl⟩
  have hall := hbefore.patience.append (hperform.append (hrestore
    ((p.engine.perform kind desired).run.finish got set).now
    ((p.engine.perform kind desired).run.finish got set).machine).patience)
  have hwaits : waits _ ≤ mostWaits kind := Nat.le_trans hall.waits (Nat.le_of_eq (Nat.zero_add _))
  rw [hasked, Program.transcript_ensuring]
  refine ⟨hall.timely none, fun hbegan => ?_, hwaits, ?_⟩
  · subst hleft
    exact (hall.timely none).mono fun t => add_left_le hbegan t
  · rintro rfl
    exact (hall.timely none).noTries (Nat.eq_zero_of_le_zero hwaits)

end Operations

/-! ### A rollback that waits twice -/

/-- The lock is denied at first, each time that it is asked for, and a dirty version is recorded. -/
def crowded : Scripted where
  session := { isConnected := true }
  playbook :=
    { latency := fun _ _ _ => 0
      reply := fun n _ q => match q with
        | .tryLock _ => .ok (n == 2 || n == 9)
        | .unlock _ => .ok true
        | .selectRow _ => .ok (some ⟨2, n == 0⟩)
        | .createTable _ | .beginTransaction | .truncate _ | .insert _
            _ | .commit | .rollback | .script .. => .ok () }

/-- The rollback of a dirty version, under a deadline of 180 ms. -/
def hurried : Body interface :=
  ⟨0, some (Duration.ofMillis 180), threeVersions.engine.operation .rollback 1⟩

/-- It asks for the lock after its deadline, and is granted it. -/
theorem second_wait_late : ∃ e ∈ tries ((hurried.start 0).transcript 0 crowded),
    Duration.ofMillis 180 < e.sent ∧ e.request.touches e.answer = true := by
  have hlate : (tries ((hurried.start 0).transcript 0 crowded)).any
      (fun e => decide (Duration.ofMillis 180 < e.sent) && e.request.touches e.answer) = true := by
    decide +kernel
  obtain ⟨e, he, hgranted⟩ := List.any_eq_true.1 hlate
  exact ⟨e, he, by simpa using hgranted⟩

end Stairway.Postgres
