import Stairway.Postgres.Lock
import Stairway.Proofs.Postgres.Asking
import Stairway.Proofs.Program.Transcript

/-!
# Polling for the lock

A `Playbook` says of each statement of a session how long it takes and what comes of it: any
sequence of tries for the lock that are granted, denied or fail, each with any latency, is a
playbook. `Scripted` is a session whose statements are answered by one.

`Polls` is how the lock is asked for, one constructor for each thing that a try can come to.
`acquire_polled_iff` says that taking the lock goes so, and in few tries, as long as the clock can
show its deadline. Where it cannot, taking the lock breaks off before the first try
(`endless_breaks_off`).
-/

namespace Stairway.Postgres

/-! ## Scripted servers -/

/-- What comes of the statements of a session, by their number and the instant. -/
structure Playbook where
  /-- How long a statement takes that is sent at an instant. -/
  latency : Nat → Instant → Statement → Duration
  /-- What a statement is answered at an instant. -/
  reply : Nat → Instant → (q : Statement) → Except ConnectionError q.Reply

/-- A session whose statements are answered by a playbook. -/
structure Scripted where
  playbook : Playbook
  session : Session := {}
  /-- How many statements have been answered. -/
  answered : Nat := 0

namespace Scripted

def arrive (s : Scripted) (now : Instant) : Request → Option Duration × Scripted
  | .statement q => (some (s.playbook.latency s.answered now q), s)
  | _ => (none, s)

def serve (s : Scripted) (now : Instant) : (r : Request) → r.Answer × Scripted
  | .statement q => (s.playbook.reply s.answered now q, { s with answered := s.answered + 1 })
  | r => ((s.session.serve {} now r).1, { s with session := (s.session.serve {} now r).2.1 })

instance : Machine interface Scripted where
  arrive r now s := s.arrive now r
  answer r now s := s.serve now r

/-- When a statement is answered that is sent now. -/
def due (s : Scripted) (now : Instant) (q : Statement) : Instant :=
  now + s.playbook.latency s.answered now q

/-- What it is answered then. -/
def told (s : Scripted) (now : Instant) (q : Statement) : Except ConnectionError q.Reply :=
  s.playbook.reply s.answered (s.due now q) q

/-- The session once the statement is answered. -/
def next (s : Scripted) : Scripted := { s with answered := s.answered + 1 }

/-- A statement is sent at once where no rollback is owed. -/
theorem send_paid {s : Scripted} (hpaid : s.session.owesRollback = false) (q : Statement)
    (now : Instant) :
    (send q).run.finish now s = ⟨.finished ((s.told now q).mapError .connection), s.next,
      s.due now q⟩ ∧
      (send q).run.transcript now s =
        [⟨.takeOwedRollback, now, false, now⟩, ⟨.statement q, now, s.told now q, s.due now q⟩] := by
  obtain ⟨playbook, session, answered⟩ := s
  obtain ⟨client, files, user, connected, owes, timeout, stop, log⟩ := session
  obtain rfl : owes = false := hpaid
  exact ⟨rfl, rfl⟩

end Scripted

/-! ## Tries -/

/-- Whether an exchange is a try for a lock. -/
def Request.isTry : Request → Bool
  | .statement (.tryLock _) => true
  | _ => false

/-- Whether a request belongs to asking for a lock. -/
def Request.isPolling : Request → Bool
  | .now | .takeOwedRollback | .statement (.tryLock _) => true
  | _ => false

/-- The tries for a lock among what has been asked. -/
def tries (asked : List (Exchange interface)) : List (Exchange interface) :=
  asked.filter (·.request.isTry)

theorem tries_try {e : Exchange interface} (h : e.request.isTry = true)
    (more : List (Exchange interface)) :
    tries (e :: more) = e :: tries more :=
  List.filter_cons_of_pos h

theorem tries_other {e : Exchange interface} (h : e.request.isTry = false)
    (more : List (Exchange interface)) :
    tries (e :: more) = tries more :=
  List.filter_cons_of_neg (by simp [h])

/-- How a lock is asked for from `t` on: the tries, and what comes of them. A try begins at `t` and
ends at `u`. -/
inductive Polls (key : Int) (timeout : Duration) (deadline : Instant) :
    Instant → List (Exchange interface) → Except DatabaseError Unit → Prop
  /-- The lock is granted. -/
  | granted {t u : Instant} (h : t ≤ u) :
      Polls key timeout deadline t [⟨.statement (.tryLock key), t, .ok true, u⟩] (.ok ())
  /-- The try fails. -/
  | failed {t u : Instant} {e : ConnectionError} (h : t ≤ u) :
      Polls key timeout deadline t [⟨.statement (.tryLock key), t, .error e, u⟩]
        (.error (.connection e))
  /-- The lock is denied, and the time is over. -/
  | late {t u : Instant} (h : t ≤ u) (hlate : deadline ≤ u) :
      Polls key timeout deadline t [⟨.statement (.tryLock key), t, .ok false, u⟩]
        (.error (.lockTimeout timeout))
  /-- The lock is denied, and it is asked for again after the interval, or at the deadline if that
  is earlier. -/
  | again {t u : Instant} {rest : List (Exchange interface)}
      {r : Except DatabaseError Unit} (h : t ≤ u)
      (hearly : u < deadline)
      (hrest : Polls key timeout deadline (min (u + pollInterval) deadline) rest r) :
      Polls key timeout deadline t (⟨.statement (.tryLock key), t, .ok false, u⟩ :: rest) r

namespace Polls

variable {key : Int} {timeout : Duration} {deadline t : Instant} {asked : List (Exchange interface)}
  {r : Except DatabaseError Unit}

/-- How many intervals are left at `t`, the last of which may be cut short. -/
def left (deadline t : Nat) : Nat := (deadline - t + pollInterval - 1) / pollInterval

/-- The next try is an interval closer to the deadline, or at the deadline. -/
theorem left_next {deadline t u : Nat} (h : t ≤ u) (hearly : u < deadline) :
    left deadline (min (u + pollInterval) deadline) + 1 ≤ left deadline t := by
  have hinterval : pollInterval = (100000000 : Nat) := rfl
  unfold left
  rw [hinterval]
  omega

theorem few (h : Polls key timeout deadline t asked r) : asked.length ≤ left deadline t + 1 := by
  induction h with
  | granted h => exact Nat.le_add_left _ _
  | failed h => exact Nat.le_add_left _ _
  | late h hlate => exact Nat.le_add_left _ _
  | again h hearly hrest ih => exact Nat.succ_le_succ (Nat.le_trans ih (left_next h hearly))

/-- No try begins after the deadline. -/
theorem within (h : Polls key timeout deadline t asked r) (ht : t ≤ deadline) :
    ∀ e ∈ asked, e.sent ≤ deadline := by
  induction h with
  | granted h => exact List.forall_mem_singleton.2 ht
  | failed h => exact List.forall_mem_singleton.2 ht
  | late h hlate => exact List.forall_mem_singleton.2 ht
  | again h hearly hrest ih => exact List.forall_mem_cons.2 ⟨ht, ih (Nat.min_le_right _ _)⟩

/-- Where the time is over, the last try has begun no later than the deadline and has ended no
earlier. -/
theorem timed_out {d : Duration} (h : Polls key timeout deadline t asked (.error (.lockTimeout d)))
    (ht : t ≤ deadline) : ∃ t' u', t' ≤ deadline ∧ deadline ≤ u' ∧
      ⟨.statement (.tryLock key), t', .ok false, u'⟩ ∈ asked := by
  generalize hr : (.error (.lockTimeout d) : Except DatabaseError Unit) = r at h
  induction h with
  | granted h => cases hr
  | failed h => cases hr
  | late h hlate => exact ⟨_, _, ht, hlate, List.mem_singleton_self _⟩
  | again h hearly hrest ih =>
    obtain ⟨t', u', hbegan, hended, hmem⟩ := ih (Nat.min_le_right _ _) hr
    exact ⟨t', u', hbegan, hended, List.mem_cons_of_mem _ hmem⟩

end Polls

/-! ## What a playbook has to do with a transcript -/

/-- Whether an exchange goes as a playbook says. -/
def Playbook.Tells (book : Playbook) (e : Exchange interface) : Prop :=
  match e with
  | ⟨.statement q, sent, a, answered⟩ =>
    ∃ n, answered = sent + book.latency n sent q ∧ a = book.reply n answered q
  | _ => True

namespace Scripted

open Program (waitFor)

theorem waitFor_tells (s : Scripted) (r : Request) (now : Instant) :
    s.playbook.Tells
      ⟨r, now, (waitFor (I := interface) r now s).1, (waitFor (I := interface) r now s).2.2⟩ ∧
      (waitFor (I := interface) r now s).2.1.playbook = s.playbook := by
  cases r with
  | statement q => exact ⟨⟨s.answered, rfl, rfl⟩, rfl⟩
  | _ => exact ⟨trivial, rfl⟩

/-- Whatever is asked of a scripted session goes as its playbook says. -/
theorem transcript_tells {α : Type} (p : Program interface α) : ∀ (now : Instant) (s : Scripted),
    ∀ e ∈ p.transcript now s, s.playbook.Tells e := by
  induction p with
  | done a => exact fun now s => List.forall_mem_nil _
  | crash => exact fun now s => List.forall_mem_nil _
  | pause d next ih => exact fun now s => ih _ s
  | race d next ih => exact fun now s => ih _ _ s
  | ask r next ih =>
    intro now s
    obtain ⟨htells, hbook⟩ := s.waitFor_tells r now
    have hrest := ih (waitFor r now s).1 (waitFor r now s).2.2 (waitFor r now s).2.1
    rw [hbook] at hrest
    exact List.forall_mem_cons.2 ⟨htells, hrest⟩

end Scripted

/-! ## Taking the lock -/

section Taking

variable {key : Int} {timeout : Duration} {deadline known now : Instant} {s : Scripted}

/-- What is done after a try in vain. -/
def retry (key : Int) (timeout : Duration) (deadline clock : Instant) : Work Unit :=
  if deadline ≤ clock then throw (.lockTimeout timeout)
  else do
    Work.wait (pollDelay deadline clock)
    poll key timeout deadline (clock + pollDelay deadline clock)

/-- What is done after a try. -/
def afterTry (key : Int) (timeout : Duration) (deadline known : Instant)
    (gotIt : Bool) : Work Unit :=
  if gotIt = true then pure () else Work.ask .now >>= fun clock => retry key timeout deadline
    (max known clock)

theorem poll_eq : poll key timeout deadline known = send (.tryLock key) >>=
    afterTry key timeout deadline known := by
  rw [poll]
  congr

/-- After a try in vain the clock is read. -/
theorem afterTry_denied (hknown : known ≤ now) :
    (afterTry key timeout deadline known false).run.finish now
      s = (retry key timeout deadline now).run.finish now s ∧
      (afterTry key timeout deadline known false).run.transcript now s =
        ⟨.now, now, now, now⟩ :: (retry key timeout deadline now).run.transcript now s := by
  have hclock : retry key timeout deadline (max known now) = retry key timeout deadline now := by
    rw [Nat.max_eq_right hknown]
  rw [← hclock]
  exact ⟨rfl, rfl⟩

theorem add_pollDelay {deadline now : Nat} (hearly : now < deadline) :
    now + pollDelay deadline now = min (now + pollInterval) deadline := by
  unfold pollDelay
  omega

/-- The lock is asked for again after the interval, or at the deadline if that is earlier. -/
theorem retry_early (hearly : now < deadline) :
    (retry key timeout deadline now).run.finish now s =
        (poll key timeout deadline (min (now + pollInterval) deadline)).run.finish
          (min (now + pollInterval) deadline) s ∧
      (retry key timeout deadline now).run.transcript now s =
        (poll key timeout deadline (min (now + pollInterval) deadline)).run.transcript
          (min (now + pollInterval) deadline) s := by
  unfold retry
  rw [if_neg (Nat.not_le_of_lt hearly), ← add_pollDelay hearly]
  exact ⟨rfl, rfl⟩

/-- **Polling**, by the intervals that are left: a try in vain takes off one. -/
theorem poll_polls (key : Int) (timeout : Duration) (deadline now : Instant) {s : Scripted}
    (hpaid : s.session.owesRollback = false) :
    ∃ r, ((poll key timeout deadline now).run.finish now s).outcome = .finished r ∧
      Polls key timeout deadline now
        (tries ((poll key timeout deadline now).run.transcript now s)) r ∧
      ∀ e ∈ (poll key timeout deadline now).run.transcript now s, e.request.isPolling = true := by
  induction hn : Polls.left deadline now using Nat.strongRecOn generalizing now s with
  | _ n ih =>
    subst hn
    obtain ⟨hend, hasked⟩ := Scripted.send_paid hpaid (.tryLock key) now
    have hlater : now ≤ s.due now (.tryLock key) := Nat.le_add_right _ _
    have hout := congrArg Program.End.outcome hend
    rw [poll_eq]
    generalize s.due now (.tryLock key) = u at hend hasked hlater
    generalize s.told now (.tryLock key) = a at hend hasked hout
    have hpolling : ∀ more : List (Exchange interface), (∀ e ∈ more, e.request.isPolling = true) →
        ∀ e ∈ [⟨.takeOwedRollback, now, false, now⟩, ⟨.statement (.tryLock key), now, a, u⟩] ++
          more, e.request.isPolling = true :=
      fun more hmore => List.forall_mem_cons.2 ⟨rfl, List.forall_mem_cons.2 ⟨rfl, hmore⟩⟩
    rcases a with e | _ | _
    · obtain ⟨hfinish, htranscript⟩ :=
        Program.andThen_error (f := afterTry key timeout deadline now) hout
      rw [hfinish, htranscript, hasked, tries_other rfl, tries_try rfl]
      exact ⟨_, rfl, .failed hlater, hpolling [] (List.forall_mem_nil _)⟩
    · obtain ⟨hfinish, htranscript⟩ :=
        Program.andThen_ok (f := afterTry key timeout deadline now) hout
      rw [hfinish, htranscript, hasked, hend, (afterTry_denied hlater).1,
        (afterTry_denied hlater).2, List.cons_append, List.cons_append, List.nil_append,
          tries_other rfl, tries_try rfl, tries_other rfl]
      by_cases hlate : deadline ≤ u
      · unfold retry
        rw [if_pos hlate]
        exact ⟨_, rfl, .late hlater hlate,
          hpolling _ (List.forall_mem_cons.2 ⟨rfl, List.forall_mem_nil _⟩)⟩
      · have hearly := Nat.lt_of_not_le hlate
        rw [(retry_early hearly).1, (retry_early hearly).2]
        obtain ⟨r, hr, hpolls, hrest⟩ :=
          ih _ (Polls.left_next hlater hearly) _ (s := s.next) hpaid rfl
        exact ⟨r, hr, .again hlater hearly hpolls, hpolling _ (List.forall_mem_cons.2 ⟨rfl, hrest⟩)⟩
    · obtain ⟨hfinish, htranscript⟩ :=
        Program.andThen_ok (f := afterTry key timeout deadline now) hout
      rw [hfinish, htranscript, hasked, hend, List.cons_append, List.cons_append, tries_other rfl,
        tries_try rfl]
      exact ⟨_, rfl, .granted hlater, hpolling [] (List.forall_mem_nil _)⟩

/-- What taking a lock comes to, if the clock can show the deadline: the lock is asked for at once
and then as `Polls` says, in few tries; and where tries take no time and the lock is free at the
deadline, the time is never over. -/
structure Polled (s : Scripted) (key : Int) (timeout : Duration) (start : Instant)
    (asked : List (Exchange interface)) (r : Except DatabaseError Unit) : Prop where
  polls : Polls key timeout (start + timeout) start (tries asked) r
  few : (tries asked).length ≤ (timeout + pollInterval - 1) / pollInterval + 1
  taken : (∀ n t, s.playbook.latency n t (.tryLock key) = 0) →
    (∀ n, s.playbook.reply n (start + timeout) (.tryLock key) = .ok true) → ∀ d,
      r ≠ .error (.lockTimeout d)

/-- What is asked goes as the playbook says, so a lock that is free at the deadline is
not missed. -/
theorem Polls.taken {start : Instant} {asked : List (Exchange interface)}
    {r : Except DatabaseError Unit} (h : Polls key timeout deadline start (tries asked) r)
    (hle : start ≤ deadline) (htells : ∀ e ∈ asked, s.playbook.Tells e)
    (hinstant : ∀ n t, s.playbook.latency n t (.tryLock key) = 0)
    (hfree : ∀ n, s.playbook.reply n deadline (.tryLock key) = .ok true) (d : Duration) :
    r ≠ .error (.lockTimeout d) := by
  rintro rfl
  obtain ⟨t, u, hbegan, hended, hmem⟩ := h.timed_out hle
  obtain ⟨n, hu, hdenied⟩ := htells _ (List.mem_filter.1 hmem).1
  rw [hinstant] at hu
  obtain rfl : u = deadline := Nat.le_antisymm (hu ▸ hbegan) hended
  rw [hfree] at hdenied
  cases hdenied

/-- What is done once the clock has been read. -/
def acquireBy (key : Int) (timeout : Duration) (start : Instant) : Option Instant → Work Unit
  | some deadline => poll key timeout deadline start
  | none => Work.breakOff

theorem acquire_eq : acquire key timeout = Work.ask .now >>= fun start =>
    acquireBy key timeout start (Instant.later? start timeout) := by
  unfold acquire
  congr

theorem acquire_run (key : Int) (timeout : Duration) (start : Instant) (s : Scripted) :
    (acquire key timeout).run.finish start s =
        (acquireBy key timeout start (Instant.later? start timeout)).run.finish start s ∧
      (acquire key timeout).run.transcript start s = ⟨.now, start, start, start⟩ ::
        (acquireBy key timeout start (Instant.later? start timeout)).run.transcript start s := by
  rw [acquire_eq]
  exact ⟨rfl, rfl⟩

/-- **Taking the lock.** It comes to an end as `Polled` says exactly if the clock can show the
deadline. -/
theorem acquire_polled_iff (key : Int) (timeout : Duration) (start : Instant) (s : Scripted)
    (hpaid : s.session.owesRollback = false) :
    (∃ r, ((acquire key timeout).run.finish start s).outcome = .finished r ∧
        Polled s key timeout start ((acquire key timeout).run.transcript start s) r) ↔
      start + timeout < Instant.horizon := by
  have htells := Scripted.transcript_tells (acquire key timeout).run start s
  rw [(acquire_run key timeout start s).2] at htells
  rw [(acquire_run key timeout start s).1, (acquire_run key timeout start s).2]
  by_cases hclock : start + timeout < Instant.horizon
  · refine iff_of_true ?_ hclock
    have hlater : Instant.later? start timeout = some (start + timeout) := if_pos hclock
    obtain ⟨r, hr, hpolls, -⟩ := poll_polls key timeout (start + timeout) start hpaid
    rw [hlater] at htells ⊢
    rw [← tries_other (e := ⟨.now, start, start, start⟩) rfl] at hpolls
    have hfew := hpolls.few
    rw [Polls.left, Nat.add_sub_cancel_left] at hfew
    exact ⟨r, hr, hpolls, hfew, hpolls.taken (Nat.le_add_right start timeout) htells⟩
  · refine iff_of_false ?_ hclock
    rw [show Instant.later? start timeout = none from if_neg hclock]
    rintro ⟨r, hr, -⟩
    cases hr

/-- Nothing else is asked while a lock is taken, and no try is made after the time is over. -/
theorem acquire_polling (key : Int) (timeout : Duration) (start : Instant) {s : Scripted}
    (hpaid : s.session.owesRollback = false) : ∀ e ∈ (acquire key timeout).run.transcript start s,
      e.request.isPolling = true ∧ (e.request.isTry = true → e.sent ≤ start + timeout) := by
  rw [(acquire_run key timeout start s).2]
  refine List.forall_mem_cons.2 ⟨⟨rfl, nofun⟩, ?_⟩
  unfold Instant.later?
  split
  · obtain ⟨r, -, hpolls, hpolling⟩ := poll_polls key timeout (start + timeout) start hpaid
    exact fun e he => ⟨hpolling e he, fun htry =>
      hpolls.within (Nat.le_add_right _ _) e (List.mem_filter.2 ⟨he, htry⟩)⟩
  · exact List.forall_mem_nil _

end Taking

/-! ### A lock that others hold for a while -/

/-- Every statement takes 30 ms, and others hold the lock until 250 ms have passed. -/
def heldAtFirst : Scripted where
  playbook :=
    { latency := fun _ _ _ => Duration.ofMillis 30
      reply := fun _ now q => match q with
        | .tryLock _ => .ok (decide (Duration.ofMillis 250 ≤ now))
        | _ => .error (.refused "") }

theorem acquire_polled_iff_heldAtFirst : heldAtFirst.session.owesRollback = false ∧
    (∃ r, ((acquire 7 (Duration.ofMillis 250)).run.finish 0 heldAtFirst).outcome = .finished r ∧
      Polled heldAtFirst 7 (Duration.ofMillis 250) 0
        ((acquire 7 (Duration.ofMillis 250)).run.transcript 0 heldAtFirst) r) :=
  ⟨rfl, (acquire_polled_iff 7 (Duration.ofMillis 250) 0 heldAtFirst rfl).2 (by decide)⟩

/-- Taking the lock with the longest of all durations breaks off without a try. -/
theorem endless_breaks_off :
    ((acquire 7 (Duration.ofSeconds 0xffffffffffffffff)).run.finish 0 heldAtFirst).outcome =
      .crashed ∧
      tries
        ((acquire 7 (Duration.ofSeconds 0xffffffffffffffff)).run.transcript 0 heldAtFirst) =
          [] := by
  have hclock : Instant.later? 0 (Duration.ofSeconds 0xffffffffffffffff) = none := by decide
  rw [(acquire_run _ _ 0 heldAtFirst).1, (acquire_run _ _ 0 heldAtFirst).2, hclock]
  exact ⟨rfl, rfl⟩

end Stairway.Postgres
