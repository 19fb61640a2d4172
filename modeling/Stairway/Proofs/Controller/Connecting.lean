import Stairway.Proofs.Controller.Deadline

/-!
# The schedule of connecting

`Connector` is the far side of connecting: it notes each line of the log and each call, with the
instant, and its calls take as long and end as a `Plan` says. `begins` and `ends` are when the tries
take place that follow from the plan and the policy alone; `Decides` says which of them settles the
matter.

`connects_on_schedule`: the caller gets what that try comes to, when it does, if the context lives
longer, and is told that time ran out if not, as soon as it has. The calls that are made, those
included that a caller has stopped waiting for, are the tries from the first on, each at its
instant; none follows a success, and no second one begins when the context is done.

A body that is left behind is run on to its end by itself, so everything is read off the run that
nobody breaks off (`runUnder_whole`).
-/

namespace Stairway

open Program (run_bind)

namespace Connecting

/-! ## The far side -/

/-- What connecting asks for: a line in the log, or an engine for a source and a database. -/
inductive Request where
  | said (line : String)
  | opening (sourceUrl databaseUrl : String)
  deriving DecidableEq, Repr

abbrev interface (ε : Type) : Interface where
  Request := Request
  Answer
    | .said _ => Unit
    | .opening _ _ => Except EngineError ε

variable {ε : Type}

/-- How long each call takes and how it ends, counted from zero. -/
abbrev Plan (ε : Type) := Nat → Duration × Except EngineError ε

/-- A connector whose calls go as planned, and what it has been asked, each at its instant. -/
structure Connector (ε : Type) where
  plan : Plan ε
  calls : Nat := 0
  events : List (Instant × Request) := []

instance : Machine (interface ε) (Connector ε) where
  arrive
    | .said _, _, c => (none, c)
    | .opening source database, now, c =>
      (some (c.plan c.calls).1,
        { c with calls := c.calls + 1, events := c.events ++ [(now, .opening source database)] })
  answer
    | .said line, now, c => ((), { c with events := c.events ++ [(now, .said line)] })
    | .opening _ _, _, c => ((c.plan (c.calls - 1)).2, c)

/-- Connecting to such a connector. -/
def connecting (ε : Type) (s : Settings) (a : Address) : Program (interface ε) (Except Failure ε) :=
  s.connecting (fun line => Program.request (I := interface ε) (.said line))
    (Program.request (I := interface ε) (.opening a.sourceUrl a.databaseUrl))

/-- Connecting by settings from `start`, under a context that is done from `expiry` on: what the
caller gets and when, and how far it has come by then. -/
def connect (s : Settings) (plan : Plan ε) (start : Instant) (expiry : Option Instant) :
    Except Failure (Option (Instant × Except Failure ε) ×
      Progress (interface ε) (Connector ε) (Except Failure ε)) :=
  s.address.map fun a => runUnder start expiry (⟨plan, 0, []⟩ : Connector ε) (connecting ε s a)

/-! ## The schedule -/

section Schedule

variable (p : RetryPolicy) (plan : Plan ε) (start : Instant)

/-- When try number `k` begins, counted from zero: after the one before it has failed, and the
delay. -/
def begins : Nat → Instant
  | 0 => start
  | k + 1 => begins k + (plan k).1 + p.delay k

def ends (k : Nat) : Instant := begins p plan start k + (plan k).1

/-- What is seen of try number `k`: it is announced, counted from one, and an engine is
asked for. -/
def tried (s : Settings) (a : Address) (k : Nat) : List (Instant × Request) :=
  [(begins s.retry plan start k, .said ("Trying to connect to the " ++ s.database.name ++
      " database " ++ toString (k + 1) ++ "/" ++ toString (max s.retry.attempts 1))),
    (begins s.retry plan start k, .opening a.sourceUrl a.databaseUrl)]

/-- Try number `k` of `n` settles the matter: it is the first success, or the last failure. -/
structure Decides (n k : Nat) : Prop where
  lt : k < n
  failed : ∀ i < k, ∃ e, (plan i).2 = .error e
  last : (∃ engine, (plan k).2 = .ok engine) ∨ k + 1 = n

end Schedule

variable {p : RetryPolicy} {plan : Plan ε} {start : Instant}

theorem begins_succ (k : Nat) :
    begins p plan start (k + 1) = ends p plan start k + p.delay k := rfl

theorem begins_le_ends (k : Nat) : begins p plan start k ≤ ends p plan start k :=
  Nat.le_add_right _ _

theorem begins_mono {i k : Nat} (h : i ≤ k) : begins p plan start i ≤ begins p plan start k := by
  induction h with
  | refl => exact Nat.le_refl _
  | step _ ih => exact Nat.le_trans ih (Nat.le_trans (begins_le_ends _) (Nat.le_add_right _ _))

/-- Some try settles the matter, and not before the first that has not failed. -/
theorem exists_decides {n m : Nat} (hm : m < n) (hfailed : ∀ i < m, ∃ e, (plan i).2 = .error e) :
    ∃ k, m ≤ k ∧ Decides plan n k := by
  induction hleft : n - (m + 1) generalizing m with
  | zero => exact ⟨m, Nat.le_refl _, hm, hfailed, Or.inr (by omega)⟩
  | succ left ih =>
    cases hend : (plan m).2 with
    | ok engine => exact ⟨m, Nat.le_refl _, hm, hfailed, Or.inl ⟨engine, hend⟩⟩
    | error e =>
      have hfailed' : ∀ i < m + 1, ∃ e, (plan i).2 = .error e := by
        intro i hi
        rcases Nat.lt_succ_iff_lt_or_eq.1 hi with hi | rfl
        · exact hfailed i hi
        · exact ⟨e, hend⟩
      obtain ⟨k, hk, hdecides⟩ := ih (by omega) hfailed' (by omega)
      exact ⟨k, Nat.le_of_succ_le hk, hdecides⟩

/-! ## The loop -/

/-- The connector when `k` tries have been made. -/
def Connector.after (plan : Plan ε) (start : Instant) (s : Settings) (a : Address)
    (k : Nat) : Connector ε :=
  ⟨plan, k, (List.range k).flatMap (tried plan start s a)⟩

/-- One try, as it stands in `Settings.connecting`. -/
def attempt (ε : Type) (s : Settings) (a : Address) (n : Nat) :
    Program (interface ε) (Except EngineError ε) :=
  (Program.request (I := interface ε) (.said ("Trying to connect to the " ++ s.database.name ++
    " database " ++ toString n ++ "/" ++ toString (max s.retry.attempts 1)))).bind fun _ =>
      Program.request (I := interface ε) (.opening a.sourceUrl a.databaseUrl)

theorem connecting_eq (s : Settings) (a : Address) :
    connecting ε s a = (retrying s.retry (attempt ε s a)).bind fun r =>
      .done (r.mapError .engine) := rfl

variable {s : Settings} {a : Address} {expiry : Option Instant}

theorem run_attempt (k : Nat) :
    (attempt ε s a (k + 1)).run expiry none (begins s.retry plan start k)
      (Connector.after plan start s a k) =
      ⟨.ended (.finished (plan k).2), Connector.after plan start s a (k + 1),
        ends s.retry plan start k⟩ := by
  simp [attempt, Program.request, Program.bind, Program.run, Machine.arrive, Machine.answer,
    Connector.after, tried, ends, List.range_succ]

/-- A wait of the loop that the context cuts short, or a look at a context that is done. -/
theorem run_race_cut {α : Type} {d : Duration} {next : Bool → Program (interface ε) α}
    {now e : Instant} (c : Connector ε) (he : e ≤ now + d) :
    (Program.race d next).run (some e) none now c = (next true).run
      (some e) none (max now e) c := by
  simp [Program.run_race, he]

/-- One that goes by while the context lives. -/
theorem run_race_alive {α : Type} {d : Duration} {next : Bool → Program (interface ε) α}
    {now : Instant} (c : Connector ε) (hlives : ∀ e, expiry = some e → now + d < e) :
    (Program.race d next).run expiry none now c = (next false).run expiry none (now + d) c := by
  have hcut : expiry.any (· ≤ now + d) = false := by
    cases expiry with
    | none => rfl
    | some e => simpa using hlives e rfl
  simp [Program.run_race, hcut]

/-- Where the loop stops that is at try number `k` and may make `left` more: behind number `m`, at
`t`. That one has settled the matter, or the context has kept the next from beginning. -/
structure Stops (s : Settings) (plan : Plan ε) (start : Instant) (expiry : Option Instant)
    (k left m : Nat) (t : Instant) : Prop where
  ge : k ≤ m
  le : m ≤ k + left
  failed : ∀ i, k ≤ i → i < m → ∃ e, (plan i).2 = .error e
  alive : ∀ i, k < i → i ≤ m → ∀ e, expiry = some e → begins s.retry plan start i < e
  why : t = ends s.retry plan start m ∧ ((∃ engine, (plan m).2 = .ok engine) ∨ m = k + left) ∨
    m < k + left ∧ (∃ f, (plan m).2 = .error f) ∧
      ∃ e, expiry = some e ∧ e ≤ begins s.retry plan start (m + 1) ∧
        t = max (ends s.retry plan start m) e

namespace Stops

variable {k left m : Nat} {t : Instant}

theorem here
    (hwhy : t = ends s.retry plan start k ∧ ((∃ engine, (plan k).2 = .ok engine) ∨ k = k + left) ∨
      k < k + left ∧ (∃ f, (plan k).2 = .error f) ∧ ∃ e, expiry = some e ∧
        e ≤ begins s.retry plan start (k + 1) ∧ t = max (ends s.retry plan start k) e) :
    Stops s plan start expiry k left k t :=
  ⟨Nat.le_refl _, Nat.le_add_right _ _, fun _ hge hlt => absurd hge (Nat.not_le.2 hlt),
    fun _ hlt hle => absurd hle (Nat.not_le.2 hlt), hwhy⟩

theorem further {f : EngineError} (hfailed : (plan k).2 = .error f)
    (halive : ∀ e, expiry = some e → begins s.retry plan start (k + 1) < e)
    (h : Stops s plan start expiry (k + 1) left m t) :
    Stops s plan start expiry k (left + 1) m t where
  ge := Nat.le_of_succ_le h.ge
  le := by have := h.le; omega
  failed i hge hlt := by
    rcases Nat.eq_or_lt_of_le hge with rfl | hgt
    · exact ⟨f, hfailed⟩
    · exact h.failed i hgt hlt
  alive i hlt hle := by
    rcases Nat.eq_or_lt_of_le (Nat.succ_le_of_lt hlt) with rfl | hgt
    · exact halive
    · exact h.alive i hgt hle
  why := by
    have hsum : k + 1 + left = k + (left + 1) := by omega
    exact hsum ▸ h.why

end Stops

theorem retryFrom_succ {I : Interface} {δ α : Type} (p : RetryPolicy)
    (attempt : Nat → Program I (Except δ α)) (k left : Nat) :
    retryFrom p attempt (k + 1) (left + 1) = (attempt (k + 1)).bind fun
      | .ok x => .done (.ok x)
      | .error e => .race 0 fun isDone =>
        if isDone then .done (.error e)
        else if p.delay k = 0 then retryFrom p attempt (k + 2) left
        else .race (p.delay k) fun isDone =>
          if isDone then .done (.error e) else retryFrom p attempt (k + 2) left := rfl

/-- The part of the loop behind a failure: either the context keeps the next try from beginning, or
it begins on schedule. -/
theorem run_failed (p : RetryPolicy) (plan : Plan ε) (start : Instant) (expiry : Option Instant)
    (k : Nat) (c : Connector ε) (result : Except EngineError ε)
    (next : Program (interface ε) (Except EngineError ε)) :
    let waiting : Program (interface ε) (Except EngineError ε) := .race 0 fun isDone =>
      if isDone then .done result
      else if p.delay k = 0 then next
      else .race (p.delay k) fun isDone => if isDone then .done result else next
    (∃ e, expiry = some e ∧ e ≤ begins p plan start (k + 1) ∧
        waiting.run expiry none (ends p plan start k) c =
          ⟨.ended (.finished result), c, max (ends p plan start k) e⟩) ∨
      (∀ e, expiry = some e → begins p plan start (k + 1) < e) ∧
        waiting.run expiry none (ends p plan start k) c =
          next.run expiry none (begins p plan start (k + 1)) c := by
  intro waiting
  by_cases hlooked : ∀ e, expiry = some e → ends p plan start k + 0 < e
  · by_cases hwaited : ∀ e, expiry = some e → ends p plan start k + p.delay k < e
    · refine Or.inr ⟨hwaited, ?_⟩
      rw [run_race_alive c hlooked, Nat.add_zero]
      by_cases hzero : p.delay k = 0
      · rw [begins_succ, hzero]
        simp
      · simp only [hzero, Bool.false_eq_true, if_false]
        rw [run_race_alive c hwaited]
        rfl
    · obtain ⟨e, rfl, he⟩ : ∃ e, expiry = some e ∧ e ≤ ends p plan start k + p.delay k := by
        simpa using hwaited
      refine Or.inl ⟨e, rfl, he, ?_⟩
      have hdelay : p.delay k ≠ 0 := by
        intro hzero
        rw [hzero] at he
        exact absurd he (Nat.not_le.2 (hlooked e rfl))
      rw [run_race_alive c hlooked, Nat.add_zero]
      simp only [hdelay, Bool.false_eq_true, if_false]
      rw [run_race_cut c he]
      rfl
  · obtain ⟨e, rfl, he⟩ : ∃ e, expiry = some e ∧ e ≤ ends p plan start k + 0 := by
      simpa using hlooked
    refine Or.inl ⟨e, rfl, Nat.le_trans he (Nat.le_add_right _ _), ?_⟩
    rw [run_race_cut c he]
    rfl

/-- **The loop**, on from any try. -/
theorem run_retryFrom (s : Settings) (a : Address) (plan : Plan ε) (start : Instant)
    (expiry : Option Instant) (left : Nat) : ∀ k, ∃ m t, Stops s plan start expiry k left m t ∧
      (retryFrom s.retry (attempt ε s a) (k + 1) left).run expiry none (begins s.retry plan start k)
        (Connector.after plan start s a k) =
          ⟨.ended (.finished (plan m).2), Connector.after plan start s a (m + 1), t⟩ := by
  induction left with
  | zero => exact fun k => ⟨k, _, .here (Or.inl ⟨rfl, Or.inr rfl⟩), run_attempt k⟩
  | succ left ih =>
    intro k
    rw [retryFrom_succ, run_bind (run_attempt k)]
    cases hend : (plan k).2 with
    | ok engine =>
      exact ⟨k, _, .here (Or.inl ⟨rfl, Or.inl ⟨engine, hend⟩⟩), by rw [hend]; rfl⟩
    | error f =>
      obtain ⟨e, hexpiry, he, hrun⟩ | ⟨halive, hrun⟩ := run_failed s.retry plan start expiry k
        (Connector.after plan start s a (k + 1)) (.error f)
        (retryFrom s.retry (attempt ε s a) (k + 2) left)
      · exact ⟨k, _,
          .here (Or.inr ⟨by omega, ⟨f, hend⟩, e, hexpiry, he, rfl⟩), by rw [hend]; exact hrun⟩
      · obtain ⟨m, t, hstops, hnext⟩ := ih (k + 1)
        exact ⟨m, t, .further hend halive hstops, hrun.trans hnext⟩

/-! ## What a caller gets, and what is done -/

/-- **Connecting on schedule.** Try number `k` settles the matter, `j` tries are made. -/
structure OnSchedule (s : Settings) (a : Address) (plan : Plan ε) (start : Instant)
    (expiry : Option Instant) (answer : Option (Instant × Except Failure ε))
    (events : List (Instant × Request)) (k j : Nat) : Prop where
  decides : Decides plan (max s.retry.attempts 1) k
  inTime : (∀ e, expiry = some e → ends s.retry plan start k < e) →
    answer = some (ends s.retry plan start k, (plan k).2.mapError .engine) ∧ j = k + 1
  tooLate : ∀ e, expiry = some e → e ≤ ends s.retry plan start k →
    answer = some (max start e, .error .timedOut)
  events : events = (List.range j).flatMap (tried plan start s a)
  first : 0 < j
  noFurther : j ≤ k + 1
  noneLate : ∀ i, 0 < i → i < j → ∀ e, expiry = some e → begins s.retry plan start i ≤ e
  counted : s.retry.attempts < UInt32.size → ∀ i < j, i + 1 < UInt32.size

/-- Where the loop stops says all of it. -/
theorem Stops.onSchedule {left m : Nat} {t : Instant} (h : Stops s plan start expiry 0 left m t)
    (hleft : left + 1 = max s.retry.attempts 1) :
    ∃ k, OnSchedule s a plan start expiry
      (envelope start expiry (some (t, .finished ((plan m).2.mapError .engine))))
      ((List.range (m + 1)).flatMap (tried plan start s a)) k (m + 1) := by
  have hle := h.le
  have hm : m < max s.retry.attempts 1 := by omega
  have hfailed : ∀ i < m, ∃ e, (plan i).2 = .error e := fun i hi => h.failed i (Nat.zero_le i) hi
  have hlate : ∀ i, 0 < i → i < m + 1 → ∀ e, expiry = some e → begins s.retry plan start i ≤ e :=
    fun i hi hlt e he => Nat.le_of_lt (h.alive i hi (Nat.le_of_lt_succ hlt) e he)
  have hcounted : s.retry.attempts < UInt32.size → ∀ i < m + 1, i + 1 < UInt32.size := by
    intro hattempts i hi
    have hone : 1 < UInt32.size := by decide
    omega
  rcases h.why with ⟨rfl, hlast⟩ | ⟨hmore, ⟨f, hf⟩, e, rfl, he, rfl⟩
  · -- the loop has come to the try that settles the matter
    refine ⟨m, ⟨hm, hfailed, ?_⟩, fun hlives => ⟨?_, rfl⟩, fun e hexpiry hpast => ?_, rfl,
      Nat.succ_pos m, Nat.le_refl _, hlate, hcounted⟩
    · rcases hlast with hok | hend
      · exact Or.inl hok
      · exact Or.inr (by omega)
    · rw [envelope_inTime hlives]
      rfl
    · subst hexpiry
      exact envelope_tooLate hpast
  · -- it would have come there no earlier than the context was done
    have hnext : ∀ i < m + 1, ∃ e, (plan i).2 = .error e := by
      intro i hi
      rcases Nat.lt_succ_iff_lt_or_eq.1 hi with hi | rfl
      · exact hfailed i hi
      · exact ⟨f, hf⟩
    obtain ⟨k, hk, hdecides⟩ := exists_decides (n := max s.retry.attempts 1) (by omega) hnext
    have hpast : e ≤ ends s.retry plan start k :=
      Nat.le_trans he (Nat.le_trans (begins_mono hk) (begins_le_ends k))
    refine ⟨k, hdecides, fun hlives => absurd (hlives e rfl) (Nat.not_lt.2 hpast),
      fun e' he' _ => ?_, rfl, Nat.succ_pos m, Nat.le_succ_of_le hk, hlate, hcounted⟩
    obtain rfl := Option.some_inj.1 he'
    exact envelope_tooLate (Nat.le_max_right _ _)

/-- **Connecting follows the retry schedule**, however long the calls take and however they end, and
whenever the context is done. What is left when the caller has gone is run on to its end. -/
theorem connects_on_schedule {s : Settings} {a : Address} (h : s.address = .ok a) (plan : Plan ε)
    (start : Instant) (expiry : Option Instant) :
    ∃ found k j, connect s plan start expiry = .ok found ∧
      OnSchedule s a plan start expiry found.1
        (found.2.activity.run expiry none found.2.now found.2.machine).machine.events k j := by
  obtain ⟨m, t, hstops, hrun⟩ :=
    run_retryFrom s a plan start expiry (max s.retry.attempts 1 - 1) 0
  have hwhole : (connecting ε s a).run expiry none start ⟨plan, 0, []⟩ =
      ⟨.ended (.finished ((plan m).2.mapError .engine)), Connector.after plan start s a (m + 1),
        t⟩ := by
    rw [connecting_eq, retrying]
    exact run_bind hrun
  obtain ⟨hanswer, hsettled⟩ := runUnder_whole hwhole
  obtain ⟨k, hschedule⟩ := hstops.onSchedule (a := a) (by omega)
  refine ⟨_, k, m + 1, by rw [connect, h]; rfl, ?_⟩
  rw [hanswer, hsettled]
  exact hschedule

/-- A database that comes up late. -/
def refusedTwice : Plan Unit :=
  fun k => (10, if k < 2 then .error (.database "refused") else .ok ())

/-- What settings come down to: the pattern comes first, then the address of the database. -/
theorem address_eq (s : Settings) :
    s.address = match Pattern.parse? s.alreadyClosedPattern with
      | none => .error .invalidPattern
      | some p => s.database.connectionUrl.map fun url => ⟨p, s.sourceUrl, url.render⟩ := by
  unfold Settings.address
  cases Pattern.parse? s.alreadyClosedPattern with
  | none => rfl
  | some p => cases s.database.connectionUrl <;> rfl

theorem exists_address {s : Settings}
    (hpattern : ∃ p, Pattern.parse? s.alreadyClosedPattern = some p)
    (hurl : ∃ url, s.database.connectionUrl = .ok url) : ∃ a, s.address = .ok a := by
  obtain ⟨p, hp⟩ := hpattern
  obtain ⟨url, hurl⟩ := hurl
  exact ⟨⟨p, s.sourceUrl, url.render⟩, by rw [address_eq, hp, hurl]; rfl⟩

/-- It is waited for with three tries, by a caller who goes before the second. -/
theorem connects_on_schedule_refusedTwice :
    ∃ a found k j, ({ retry := ⟨3, 100, 100⟩ } : Settings).address = .ok a ∧
      connect { retry := ⟨3, 100, 100⟩ } refusedTwice 0 (some 60) = .ok found ∧
      OnSchedule { retry := ⟨3, 100, 100⟩ } a refusedTwice 0 (some 60) found.1
        (found.2.activity.run (some 60) none found.2.now found.2.machine).machine.events k j := by
  obtain ⟨a, ha⟩ := exists_address (s := { retry := ⟨3, 100, 100⟩ }) ⟨_, rfl⟩ ⟨_, rfl⟩
  obtain ⟨found, k, j, hfound, hschedule⟩ := connects_on_schedule ha refusedTwice 0 (some 60)
  exact ⟨a, found, k, j, ha, hfound, hschedule⟩

end Connecting

end Stairway
