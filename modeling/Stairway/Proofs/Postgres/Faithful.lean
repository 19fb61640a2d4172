import Stairway.Proofs.Controller.Background
import Stairway.Proofs.Memory.Serial
import Stairway.Proofs.Postgres.RoundTrip

/-!
# The engine in memory is faithful

An engine in memory with `n` migrations stands for one behind a server whose source has an up and a
down script for each version from 1 to `n`. Both are started on a fresh database, are asked for the
same things by callers that never leave, and find the same stop requests before their steps.

Between two programs the two are level: the store is at the version that the row records, and as
many steps have been taken (`Level`). A plan of such a source leads one version at a time, as the
store goes (`Numbered.plan_cons`), so a migration comes to the same on both sides
(`finish_stepsUpTo`, `engine_alike`), and nobody can tell the engines apart (`sights_faithful`).
-/

namespace Stairway

/-- The recorded version that counts as `c`. -/
def versionAt (c : Nat) : Option Nat := if c = 0 then none else some c

theorem getD_versionAt (c : Nat) : (versionAt c).getD 0 = c := by
  unfold versionAt
  split
  · next h => exact h.symm
  · rfl

namespace Source

variable {s : Source} {n c target : Nat}

/-- Whether the known versions are those from 1 to `n`. -/
def Numbered (s : Source) (n : Nat) : Prop := ∀ v, v ∈ s.versions ↔ 1 ≤ v ∧ v ≤ n

theorem Numbered.reaches (h : s.Numbered n) (v : Nat) : s.reaches v = true ↔ v ≤ n := by
  rw [reaches_iff, h]
  omega

/-- The version before `c` is the next smaller number. -/
theorem Numbered.prev? (h : s.Numbered n) (hpos : 0 < c) (hle : c ≤ n) :
    s.prev? c = versionAt (c - 1) := by
  have hlower : (s.prev? c).getD 0 < c := level_prev?_lt hpos
  cases hprev : s.prev? c with
  | none =>
    have hone : ¬ 1 < c := by
      intro hlt
      have hbetween := le_level_prev? ((h 1).2 (by omega)) hlt
      rw [hprev, Option.getD_none] at hbetween
      omega
    obtain rfl : c = 1 := by omega
    rfl
  | some w =>
    obtain ⟨hknown, hlt⟩ := prev?_mem hprev
    have hw := (h w).1 hknown
    have hbetween := le_level_prev? (v := c) ((h (c - 1)).2 (by omega)) (by omega)
    rw [hprev, Option.getD_some] at hbetween
    obtain rfl : w = c - 1 := by omega
    unfold versionAt
    rw [if_neg (by omega)]

/-- **A plan goes one version at a time**, towards the target. -/
theorem Numbered.plan_cons (h : s.Numbered n) {t : Step} {rest : List Step} (hc : c ≤ n)
    (hplan : s.plan (versionAt c) target = .ok (t :: rest)) :
    c ≠ target ∧ Memory.toward target c ≤ n ∧ t.target = versionAt (Memory.toward target c) ∧
      s.plan (versionAt (Memory.toward target c)) target = .ok rest := by
  have htarget : target ≤ n := (h.reaches target).1 (plan_reaches hplan).1
  have hnext : c ≠ target ∧ Memory.toward target c ≤ n ∧
      t.target = versionAt (Memory.toward target c) := by
    have hcases := plan_cases hplan
    rw [getD_versionAt] at hcases
    unfold Memory.toward
    rcases hcases with ⟨hlt, hsteps⟩ | ⟨hle, hsteps⟩
    · obtain ⟨v, rfl, hv, habove, -, hfirst, -⟩ := climb_cons hsteps.symm
      have hnext : ¬ c + 1 < v := fun hbetween =>
        absurd (hfirst (c + 1) ((h (c + 1)).2 (by omega)) hbetween) (by omega)
      obtain rfl : v = c + 1 := by omega
      rw [if_pos hlt]
      refine ⟨by omega, by omega, ?_⟩
      unfold Step.target versionAt
      rw [if_neg (by omega)]
    · obtain ⟨v, rfl, hv, hbelow, hvc, hlast, -⟩ := descend_cons hsteps.symm
      have hknown : c ∈ s.versions := (h c).2 (by omega)
      obtain rfl : v = c := Nat.le_antisymm hvc (hlast c hknown (Nat.le_refl c))
      rw [if_neg (by omega)]
      exact ⟨by omega, by omega, h.prev? (by omega) hc⟩
  obtain ⟨hne, hle, ht⟩ := hnext
  refine ⟨hne, hle, ht, ?_⟩
  rw [← ht]
  exact plan_resume hplan

/-- Only a target that is not there has no plan. -/
theorem Numbered.plan_error (h : s.Numbered n) {e : SourceError} (hc : c ≤ n)
    (hplan : s.plan (versionAt c) target = .error e) : n < target ∧ e = .missing target := by
  by_cases htarget : target ≤ n
  · have hcurrent : s.reaches ((versionAt c).getD 0) = true := by rwa [getD_versionAt, h.reaches]
    rw [plan_eq ((h.reaches target).2 htarget) hcurrent] at hplan
    cases hplan
  · have hunknown : s.reaches target = false := by
      rw [← Bool.not_eq_true, h.reaches]
      exact htarget
    unfold plan at hplan
    rw [hunknown] at hplan
    cases hplan
    exact ⟨Nat.lt_of_not_le htarget, rfl⟩

end Source

namespace Memory

/-! ## The store -/

/-- A store with `n` migrations that is at version `c`, after so many steps, and whose calls all
succeed. -/
structure Store.At (n c steps : Nat) (s : Store) : Prop where
  version : s.version = versionAt c
  clean : s.dirty = false
  available : s.available = n
  succeeds : s.migrateError = none
  unclosed : s.closed = false
  stop : s.stop = {}
  unfailing : ∀ point, s.faults.at point = none
  steps : s.steps = steps

variable {n c steps : Nat} {s : Store} {now : Instant} {prompts : List Bool}

theorem finish_guarded {α : Type} {point : Point} {p : Program interface (Except EngineError α)}
    (h : s.At n c steps) :
    (guarded point p).finish now (⟨s, prompts⟩ : Prompted Store) = p.finish now ⟨s, prompts⟩ := by
  simp [guarded, ask, Program.request, Program.bind, Program.finish, Program.waitFor,
    Machine.arrive, Machine.answer, Store.serve, Stoppable.isLook, h.unfailing]

/-- A look finds what the first prompt says, and the slot is empty again. -/
theorem finish_takeStop (h : s.At n c steps) :
    (ask .takeStop).finish now (⟨s, prompts⟩ : Prompted Store) =
      ⟨.finished (prompts.headD false), ⟨s, prompts.tail⟩, now⟩ := by
  have hstop : s.stop = {} := h.stop
  obtain ⟨⟩ := s
  obtain rfl := hstop
  rcases prompts with _ | ⟨_ | _, rest⟩ <;> rfl

/-- The store that a step to `next` leaves. -/
def Store.stepped (s : Store) (next : Nat) : Store :=
  ((s.serve (.beginStep next)).2.serve (.endStep next)).2

theorem Store.At.stepped (h : s.At n c steps) (next : Nat) :
    (s.stepped next).At n next (steps + 1) where
  version := rfl
  clean := rfl
  available := h.available
  succeeds := h.succeeds
  unclosed := h.unclosed
  stop := h.stop
  unfailing := h.unfailing
  steps := congrArg (· + 1) h.steps

theorem finish_step (delay : Duration) (next : Nat) (s : Store) (now : Instant)
    (prompts : List Bool) :
    ((step delay next).finish now (⟨s, prompts⟩ : Prompted Store)).outcome = .finished () ∧
      ((step delay next).finish now (⟨s, prompts⟩ : Prompted Store)).machine =
        ⟨s.stepped next, prompts⟩ := by
  unfold step
  split <;> exact ⟨rfl, rfl⟩

theorem finish_version (now : Instant) (prompts : List Bool) (h : s.At n c steps) :
    (engine.version.finish now (⟨s, prompts⟩ : Prompted Store)).outcome =
      .finished (.ok ((versionAt c).map fun v => ⟨v, false⟩)) ∧
    ∃ s', s'.At n c steps ∧
      (engine.version.finish now (⟨s, prompts⟩ : Prompted Store)).machine = ⟨s', prompts⟩ := by
  have hversion : engine.version.finish now (⟨s, prompts⟩ : Prompted Store) =
      (ask .version).finish now ⟨s, prompts⟩ := finish_guarded h
  have hserved : (s.serve .version) =
      (.ok ((versionAt c).map fun v => ⟨v, false⟩), s.record .version) := by
    simp [Store.serve, Store.record, h.unclosed, h.version, h.clean]
  have hended : (ask .version).finish now (⟨s, prompts⟩ : Prompted Store) =
      ⟨.finished (s.serve .version).1, ⟨(s.serve .version).2, prompts⟩, now⟩ := rfl
  rw [hversion, hended, hserved]
  exact ⟨rfl, s.record .version,
    ⟨h.version, h.clean, h.available, h.succeeds, h.unclosed, h.stop, h.unfailing, h.steps⟩, rfl⟩

end Memory

namespace Postgres

open Program (Alike OnValue)

variable {p : Plant} {base : Site} {n c : Nat} {limit : Instant} {prompts : List Bool}

/-! ## The same steps on both sides -/

/-- The row that records `c`. -/
def rowAt (c : Nat) : Option Row := (versionAt c).map fun v => ⟨v, false⟩

theorem ofRow_rowAt (c : Nat) : Plant.ofRow (rowAt c) = (versionAt c).map fun v => ⟨v, false⟩ := by
  unfold rowAt
  cases versionAt c with
  | none => rfl
  | some v => simp [Plant.ofRow]

theorem mark_eq_rowAt {t : Step} (hsmall : c < 0x8000000000000000) (h : t.target = versionAt c) :
    t.mark false = rowAt c := by
  unfold Step.mark rowAt
  rw [h]
  unfold versionAt
  split
  · rfl
  · rw [recorded_of_lt hsmall, written_clean]
    rfl

/-- What has become of a store, and of a row, by a migration of which these steps were taken. -/
structure Arrived (n steps : Nat) (row : Option Row) (prompts : List Bool)
    (result : Except EngineError Unit)
    (e : Program.End (Prompted Memory.Store) (Except EngineError Unit)) : Prop where
  outcome : e.outcome = .finished result
  prompts : e.machine.prompts = prompts
  level : ∃ c ≤ n, row = rowAt c ∧ e.machine.machine.At n c steps

/-- **A migration in memory goes through a plan** of a source that is numbered as it is. -/
theorem finish_stepsUpTo {source : Source} (hsource : source.Numbered n)
    (hsmall : n < 0x8000000000000000) (delay : Duration) {target : Nat} {plan : List Step} :
    ∀ {c steps : Nat} {s : Memory.Store} {now : Instant} {prompts : List Bool}, c ≤ n →
      source.plan (versionAt c) target = .ok plan → s.At n c steps →
      Arrived n (steps + (heed plan prompts).1.length) (rowAfter (rowAt c) (heed plan prompts).1)
        (heed plan prompts).2.2 (if (heed plan prompts).2.1 then .error .stopped else .ok ())
        ((Memory.stepsUpTo delay target c).finish now ⟨s, prompts⟩) := by
  induction plan with
  | nil =>
    intro c steps s now prompts hc hplan hs
    have hthere : c = target := by rw [← Source.plan_nil hplan, getD_versionAt]
    rw [Memory.stepsUpTo, dif_pos hthere]
    exact ⟨rfl, rfl, c, hc, rfl, hs⟩
  | cons t rest ih =>
    intro c steps s now prompts hc hplan hs
    obtain ⟨hne, hnext, ht, hrest⟩ := hsource.plan_cons hc hplan
    rw [Memory.stepsUpTo_eq hne, Program.bind_def, Program.finish_bind, Memory.finish_takeStop hs]
    simp only [heed, Program.End.andThen]
    by_cases hstop : prompts.headD false = true
    · simp only [hstop, if_true]
      exact ⟨rfl, rfl, c, hc, rfl, hs⟩
    · simp only [hstop, if_false, Bool.false_eq_true]
      obtain ⟨hdone, hstore⟩ := Memory.finish_step delay (Memory.toward target c) s now prompts.tail
      rw [Program.bind_def, Program.finish_bind, Program.End.andThen, hdone, hstore]
      rw [rowAfter_cons, mark_eq_rowAt (Nat.lt_of_le_of_lt hnext hsmall) ht, List.length_cons,
        Nat.add_comm _ 1, ← Nat.add_assoc]
      exact ih hnext hrest (hs.stepped (Memory.toward target c))

theorem finish_migrateTo {source : Source} {target c steps : Nat} {s : Memory.Store}
    {plan : List Step} (now : Instant) (prompts : List Bool) (hsource : source.Numbered n)
    (hsmall : n < 0x8000000000000000) (hc : c ≤ n)
    (hplan : source.plan (versionAt c) target = .ok plan) (hs : s.At n c steps) :
    Arrived n (steps + (heed plan prompts).1.length) (rowAfter (rowAt c) (heed plan prompts).1)
      (heed plan prompts).2.2 (if (heed plan prompts).2.1 then .error .stopped else .ok ())
      ((Memory.engine.migrateTo target).finish now ⟨s, prompts⟩) := by
  have htarget : target ≤ n := (hsource.reaches target).1 (Source.plan_reaches hplan).1
  have hserved : s.serve (.startMigration target) =
      (.ok (s.stepDelay, c), s.record (.migrateTo target)) := by
    have hknown : ¬ s.available < target := by
      rw [hs.available]
      omega
    have hlevel : s.version.getD 0 = c := by rw [hs.version, getD_versionAt]
    simp [Memory.Store.serve, Memory.Store.record, hs.succeeds, hknown, hlevel]
  have hstarted : (Memory.migrateTo target).finish now (⟨s, prompts⟩ : Prompted Memory.Store) =
      (Memory.stepsUpTo s.stepDelay target c).finish now
      ⟨s.record (.migrateTo target), prompts⟩ := by
    have hasked : (Memory.ask (.startMigration target)).finish now
        (⟨s, prompts⟩ : Prompted Memory.Store) =
        ⟨.finished (s.serve (.startMigration target)).1,
          ⟨(s.serve (.startMigration target)).2, prompts⟩, now⟩ := rfl
    unfold Memory.migrateTo
    rw [Program.bind_def, Program.finish_bind, hasked, hserved]
    rfl
  have hguarded : (Memory.engine.migrateTo target).finish now
      (⟨s, prompts⟩ : Prompted Memory.Store) =
      (Memory.migrateTo target).finish now ⟨s, prompts⟩ := Memory.finish_guarded hs
  rw [hguarded, hstarted]
  refine finish_stepsUpTo hsource hsmall s.stepDelay hc hplan ?_
  exact ⟨hs.version, hs.clean, hs.available, hs.succeeds, hs.unclosed, hs.stop, hs.unfailing,
    hs.steps⟩

theorem finish_migrateTo_missing {target c steps : Nat} {s : Memory.Store} (now : Instant)
    (prompts : List Bool) (htarget : n < target) (hs : s.At n c steps) :
    ∃ s', s'.At n c steps ∧ (Memory.engine.migrateTo target).finish now
      (⟨s, prompts⟩ : Prompted Memory.Store) =
      ⟨.finished (.error (.missingMigration target)), ⟨s', prompts⟩, now⟩ := by
  have hserved : s.serve (.startMigration target) =
      (.error (.missingMigration target), s.record (.migrateTo target)) := by
    simp [Memory.Store.serve, Memory.Store.record, hs.succeeds, hs.available, htarget]
  have hasked : (Memory.ask (.startMigration target)).finish now
      (⟨s, prompts⟩ : Prompted Memory.Store) =
      ⟨.finished (s.serve (.startMigration target)).1,
        ⟨(s.serve (.startMigration target)).2, prompts⟩, now⟩ := rfl
  have hguarded : (Memory.engine.migrateTo target).finish now
      (⟨s, prompts⟩ : Prompted Memory.Store) =
      (Memory.migrateTo target).finish now ⟨s, prompts⟩ := Memory.finish_guarded hs
  refine ⟨s.record (.migrateTo target), ?_, ?_⟩
  · exact ⟨hs.version, hs.clean, hs.available, hs.succeeds, hs.unclosed, hs.stop, hs.unfailing,
      hs.steps⟩
  · rw [hguarded]
    unfold Memory.migrateTo
    rw [Program.bind_def, Program.finish_bind, hasked, hserved]
    rfl

/-! ## Both engines -/

/-- A prompted store and a prompted site that stand for each other: the same prompts are left, the
store is at the version that the row records, and it has taken as many steps as the site has begun.
-/
def Level (p : Plant) (base : Site) (n : Nat) (m : Prompted Memory.Store)
    (k : Prompted Site) : Prop :=
  ∃ c ≤ n, ∃ sent, m.machine.At n c (sent.countP (·.beginsStep)) ∧
    Goes p base .closed (rowAt c) sent m.prompts k

/-- Both engines tell the same version, and it is clean. -/
theorem alike_version : Alike (base.clock limit) (Level p base n)
    (OnValue fun v => (v.getD ⟨0, false⟩).dirty = false) Memory.engine.version
      p.engine.version := by
  constructor
  · rintro ⟨s, prompts⟩ k ⟨c, hc, sent, hs, hk⟩ t u hearly
    obtain ⟨hstore, s', hs', hmachine⟩ := Memory.finish_version t prompts hs
    obtain ⟨hsite, hk'⟩ := (ensures_version hk).holds u hearly
    rw [hstore, hmachine, hsite, ofRow_rowAt]
    refine ⟨rfl, ?_, c, hc, _, ?_, hk'⟩
    · rintro _ ⟨⟩
      cases versionAt c <;> rfl
    · simpa [Statement.beginsStep] using hs'
  · rintro hstands m k ⟨c, -, sent, -, hk⟩ u hearly
    exact (ensures_version hk).stands hstands u hearly

section Migrating

variable (hsource : p.source.Numbered n) (hscripts : p.HasScripts n base)
  (hlimit : limit + base.session.lockTimeout ≤ Instant.horizon)

include hsource hscripts

theorem readable_plan {current : Option Nat} {target : Nat} {steps : List Step}
    (hplan : p.source.plan current target = .ok steps) :
    ∀ t ∈ steps, ∃ text, p.scriptText base.session.files t = .ok text := by
  intro t ht
  have hknown := Source.plan_known hplan t ht
  exact hscripts t.version hknown ((hsource t.version).1 hknown).2 t.direction

include hlimit

theorem ensures_migrateTo_rowAt {sent : List Statement} {k : Prompted Site}
    (hk : Goes p base .closed (rowAt c) sent prompts k) (target : Nat) :
    (p.engine.migrateTo target).Ensures (base.clock limit) (fun o k' =>
      o = .finished
        ((p.trip base.session.files (rowAt c) prompts target).result.mapError
          DatabaseError.toEngine) ∧
        Goes p base .closed (p.trip base.session.files (rowAt c) prompts target).row
          (sent ++ [.tryLock p.target.lockKey] ++
            (p.trip base.session.files (rowAt c) prompts target).sent ++ [.unlock p.target.lockKey])
            (p.trip base.session.files (rowAt c) prompts target).prompts k') k := by
  have hclean : isDirty (rowAt c) = false := by
    unfold isDirty schemaOf
    rw [ofRow_rowAt]
    cases versionAt c <;> rfl
  exact ensures_migrateTo hlimit hk hclean fun steps hplan => readable_plan hsource hscripts hplan

/-- **Both engines migrate alike.** -/
theorem alike_migrateTo (hsmall : n < 0x8000000000000000) (target : Nat) :
    Alike (base.clock limit) (Level p base n) (fun _ => True) (Memory.engine.migrateTo target)
      (p.engine.migrateTo target) := by
  constructor
  · rintro ⟨s, prompts⟩ k ⟨c, hc, sent, hs, hk⟩ t u hearly
    have hversion : (Plant.ofRow (rowAt c)).map (·.version) = versionAt c := by
      rw [ofRow_rowAt, Option.map_map]
      exact Option.map_id'
    obtain ⟨hsite, hk'⟩ :=
      (ensures_migrateTo_rowAt hsource hscripts hlimit hk target).holds u hearly
    cases hplan : p.source.plan (versionAt c) target with
    | error e =>
      obtain ⟨hmissing, rfl⟩ := hsource.plan_error hc hplan
      obtain ⟨s', hs', hstore⟩ := finish_migrateTo_missing t prompts hmissing hs
      have htrip : p.trip base.session.files (rowAt c) prompts target =
          ⟨.error (.source (.missing target)), rowAt c, [.selectRow p.table], prompts⟩ := by
        simp [Plant.trip, hversion, hplan]
      rw [htrip] at hsite hk'
      rw [hsite, hstore]
      refine ⟨rfl, fun _ _ => trivial, c, hc, _, ?_, hk'⟩
      simpa [Statement.beginsStep] using hs'
    | ok steps =>
      have hstore := finish_migrateTo t prompts hsource hsmall hc hplan hs
      obtain ⟨c', hc', hrow, hs'⟩ := hstore.level
      have htrip : p.trip base.session.files (rowAt c) prompts target =
          ⟨if (heed steps prompts).2.1 then .error .stopped else .ok (), rowAt c',
            .selectRow p.table :: (heed steps prompts).1.flatMap (p.talk base.session.files),
            (heed steps prompts).2.2⟩ := by
        simp [Plant.trip, hversion, hplan, hrow]
      rw [htrip] at hsite hk'
      have hbegun := countP_exchange fun t ht =>
        readable_plan hsource hscripts hplan t ((heed_taken steps prompts).subset ht)
      rw [← hbegun, ← List.countP_append] at hs'
      have hk'' : Goes p base .closed (rowAt c')
          (sent ++ p.exchange base.session.files (heed steps prompts).1) (heed steps prompts).2.2
          ((p.engine.migrateTo target).finish u k).machine := by
        simpa [Plant.exchange] using hk'
      rw [hsite, hstore.outcome]
      refine ⟨?_, fun _ _ => trivial, c', hc', _, hs', hstore.prompts.symm ▸ hk''⟩
      cases (heed steps prompts).2.1 <;> rfl
  · rintro hstands m k ⟨c, -, sent, -, hk⟩ u hearly
    exact (ensures_migrateTo_rowAt hsource hscripts hlimit hk target).stands hstands u hearly

end Migrating

theorem alike_log (line : String) : Alike (base.clock limit) (Level p base n) (fun _ => True)
    (Memory.engine.log line) (p.engine.log line) := by
  constructor
  · rintro ⟨s, prompts⟩ k ⟨c, hc, sent, hs, hk⟩ t u _
    refine ⟨rfl, fun _ _ => trivial, c, hc, sent, ?_, ?_⟩
    · exact ⟨hs.version, hs.clean, hs.available, hs.succeeds, hs.unclosed, hs.stop, hs.unfailing,
        hs.steps⟩
    · exact ⟨⟨hk.client, hk.files, hk.lockTimeout, hk.stop, hk.connected, hk.paid, hk.unfailing,
        hk.quiet, hk.granting, hk.alone, hk.draft, hk.row, hk.sent⟩, hk.prompts⟩
  · exact fun _ _ _ _ _ _ => rfl

/-- Putting the lock timeout back changes nothing for a session that has its own. -/
theorem alike_restore (htimeout : base.session.lockTimeout = defaultLockTimeout) :
    Alike (base.clock limit) (Level p base n) (fun _ => True) Memory.engine.restoreLockTimeout
      p.engine.restoreLockTimeout := by
  constructor
  · rintro ⟨s, prompts⟩ k ⟨c, hc, sent, hs, hk⟩ t u _
    refine ⟨rfl, fun _ _ => trivial, c, hc, sent, ?_, ?_⟩
    · exact ⟨hs.version, hs.clean, hs.available, hs.succeeds, hs.unclosed, hs.stop, hs.unfailing,
        hs.steps⟩
    · exact ⟨⟨hk.client, hk.files, htimeout.symm, hk.stop, hk.connected, hk.paid, hk.unfailing,
        hk.quiet, hk.granting, hk.alone, hk.draft, hk.row, hk.sent⟩, hk.prompts⟩
  · exact fun _ _ _ _ _ _ => rfl

/-- **The engines come to the same**, program by program. -/
theorem engine_alike (hsource : p.source.Numbered n) (hscripts : p.HasScripts n base)
    (htimeout : base.session.lockTimeout = defaultLockTimeout) (hsmall : n < 0x8000000000000000)
    (hlimit : limit + base.session.lockTimeout ≤ Instant.horizon) :
    Engine.Alike (base.clock limit) (Level p base n) Memory.engine p.engine where
  version := alike_version
  migrateTo := alike_migrateTo hsource hscripts hlimit hsmall
  log := alike_log
  restoreLockTimeout := alike_restore htimeout

/-- The steps that a site has begun since it was `base`. -/
def Site.stepsSince (s base : Site) : Nat :=
  (s.server.statements.drop base.server.statements.length).countP (·.beginsStep)

/-- **Nobody can tell the engines apart.** A controller over an engine in memory with `n` migrations
and one over an engine whose source has an up and a down script for each version from 1 to `n`, both
started on a fresh database where nothing fails, tell their callers the same, call by call, and show
the same version and the same number of steps after each, whichever looks for a stop find one. -/
theorem sights_faithful {store : Memory.Store} {prompts : List Bool} {errands : List Errand}
    {now now' : Instant} (hsmall : n < 0x8000000000000000) (hstore : store.At n 0 0)
    (hsource : p.source.Numbered n) (hscripts : p.HasScripts n base) (hfresh : base.Fresh p)
    (htimeout : base.session.lockTimeout = defaultLockTimeout)
    (hclock : (Schedule.follow p.engine (errands.map (·.inBackground))
      { engine := (⟨base, prompts⟩ : Prompted Site), now := now' }).2.now + defaultLockTimeout <
        Instant.horizon) :
    Schedule.sights Memory.engine (·.machine.steps) (errands.map (·.inBackground))
        { engine := (⟨store, prompts⟩ : Prompted Memory.Store), now := now } =
      Schedule.sights p.engine (·.machine.stepsSince base) (errands.map (·.inBackground))
        { engine := (⟨base, prompts⟩ : Prompted Site), now := now' } := by
  obtain ⟨limit, hlimit⟩ : ∃ limit, limit + defaultLockTimeout = Instant.horizon :=
    ⟨_, Nat.sub_add_cancel (Nat.le_of_lt (Nat.lt_of_le_of_lt (Nat.le_add_left _ _) hclock))⟩
  have halike : Engine.Alike (base.clock limit) (Level p base n) Memory.engine p.engine :=
    engine_alike hsource hscripts htimeout hsmall (htimeout ▸ Nat.le_of_eq hlimit)
  have hsteps : ∀ m k, Level p base n m k → m.machine.steps = k.machine.stepsSince base := by
    rintro m k ⟨c, -, sent, hs, hk⟩
    unfold Site.stepsSince
    rw [hs.steps, hk.sent, List.drop_left]
  refine Schedule.sights_alike halike (fun m k h t u => ?_) hsteps errands
    (Schedule.atRest_start _ _)
    (Schedule.atRest_start _ _) ?_ (Nat.lt_of_add_lt_add_right (hlimit.symm ▸ hclock))
  · exact (alike_version.holds m k h t u (Nat.lt_succ_self _)).1
  · exact ⟨0, Nat.zero_le n, [], hstore, hfresh, rfl⟩

/-- Four calls, the first of which is stopped half way: a step up, another step up, a version that
is not the one there, and down again. -/
def stoppedHalfWay : List Errand :=
  [{ kind := .apply, desired := 2 }, { kind := .apply, desired := 2 },
    { kind := .assert, desired := 1 }, { kind := .rollback, desired := 0 }]

/-- The first of the four is stopped after one step, and the others go on from there. -/
theorem sights_faithful_stoppedHalfWay :
    2 < 0x8000000000000000 ∧ ({ available := 2 } : Memory.Store).At 2 0 0 ∧
      oneAndTwo.source.Numbered 2 ∧ oneAndTwo.HasScripts 2 opened ∧ opened.Fresh oneAndTwo ∧
      opened.session.lockTimeout = defaultLockTimeout ∧
      (Schedule.follow oneAndTwo.engine (stoppedHalfWay.map (·.inBackground))
        { engine := (⟨opened, [false, true]⟩ : Prompted Site), now := 0 }).2.now +
          defaultLockTimeout <
          Instant.horizon ∧
      Schedule.sights Memory.engine (·.machine.steps) (stoppedHalfWay.map (·.inBackground))
          { engine := (⟨{ available := 2 }, [false, true]⟩ : Prompted Memory.Store), now := 0 } =
        Schedule.sights oneAndTwo.engine (·.machine.stepsSince opened)
          (stoppedHalfWay.map (·.inBackground))
          { engine := (⟨opened, [false, true]⟩ : Prompted Site), now := 0 } := by
  have hsmall : 2 < 0x8000000000000000 := by decide
  have hstore : ({ available := 2 } : Memory.Store).At 2 0 0 :=
    ⟨rfl, rfl, rfl, rfl, rfl, rfl, fun _ => rfl, rfl⟩
  have hsource : oneAndTwo.source.Numbered 2 := by
    intro v
    have hversions : oneAndTwo.source.versions = [1, 2] := by rfl
    rw [hversions]
    simp only [List.mem_cons, List.not_mem_nil, or_false]
    omega
  have hfresh := opened_fresh oneAndTwo
  have halike : Engine.Alike (opened.clock 1) (Level oneAndTwo opened 2) Memory.engine
      oneAndTwo.engine :=
    engine_alike hsource oneAndTwo_scripts rfl hsmall (by decide)
  have hlevel : Level oneAndTwo opened 2 ⟨{ available := 2 }, [false, true]⟩
      ⟨opened, [false, true]⟩ :=
    ⟨0, Nat.zero_le 2, [], hstore, hfresh, rfl⟩
  have hnow := Schedule.follow_stands halike rfl stoppedHalfWay (by decide)
    (Schedule.atRest_start (⟨opened, [false, true]⟩ : Prompted Site) 0) hlevel (by decide)
  have hclock : (Schedule.follow oneAndTwo.engine (stoppedHalfWay.map (·.inBackground))
      { engine := (⟨opened, [false, true]⟩ : Prompted Site), now := 0 }).2.now +
        defaultLockTimeout <
        Instant.horizon := by
    rw [hnow]
    decide
  exact ⟨hsmall, hstore, hsource, oneAndTwo_scripts, hfresh, rfl, hclock,
    sights_faithful hsmall hstore hsource oneAndTwo_scripts hfresh rfl hclock⟩

end Postgres

end Stairway
