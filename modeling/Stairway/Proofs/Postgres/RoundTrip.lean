import Mathlib
import Stairway.Proofs.Migrations.Neighbours
import Stairway.Proofs.Postgres.Undisturbed

/-!
# There and back

From a database that was never migrated an engine goes up to a known version, and from there down to
none. Every known version on the way should have its up script run once, in ascending order, and its
down script once, in descending order, until no row is left (`RunsEverything`). `runsEverything_iff`
says when this is so: no script is numbered 0, for a schema at 0 counts as one that was never
migrated, and the version is one that the version table can hold, for any larger one is recorded as
none.

It is followed by a source with a version 0, whose scripts are passed over.
-/

namespace Stairway

namespace Source

variable {s : Source} {t : Nat}

/-- One step up for each known version up to `t`, ascending. -/
def ascent (s : Source) (t : Nat) : List Step := (s.versions.filter (· ≤ t)).map .up

/-- One step down for each known version up to `t`, descending. -/
def descent (s : Source) (t : Nat) : List Step :=
  (s.versions.reverse.filter (· ≤ t)).map fun v => .down v (s.prev? v)

theorem climb_eq_ascent (h : 0 ∉ s.versions) : s.climb 0 t = s.ascent t := by
  unfold climb ascent
  refine congrArg (List.map Step.up) (List.filter_congr fun v hv => ?_)
  have hpos : 0 < v := Nat.pos_of_ne_zero fun hzero => h (hzero ▸ hv)
  simp [hpos]

theorem descend_eq_descent (h : 0 ∉ s.versions) : s.descend t 0 = s.descent t := by
  unfold descend descent
  refine congrArg (List.map _) (List.filter_congr fun v hv => ?_)
  have hpos : 0 < v := Nat.pos_of_ne_zero fun hzero => h (hzero ▸ List.mem_reverse.1 hv)
  simp [hpos]

/-- A version 0 is not climbed to. -/
theorem climb_length_ne (h : 0 ∈ s.versions) : (s.climb 0 t).length ≠ (s.ascent t).length := by
  unfold climb ascent
  rw [List.length_map, List.length_map]
  intro hlength
  have hsublist : (s.versions.filter fun v => 0 < v && v ≤ t).Sublist
      (s.versions.filter (· ≤ t)) := by
    rw [← List.filter_filter]
    exact List.filter_sublist
  have hzero : 0 ∈ s.versions.filter (· ≤ t) := by simp [h]
  rw [← hsublist.eq_of_length hlength] at hzero
  simp at hzero

end Source

namespace Postgres

open Program (Ensures)

variable {p : Plant} {base s : Site} {t : Nat} {now limit : Instant}

/-! ## There and back -/

namespace Plant

variable (p)

/-- A migration up to `t`. -/
def there (t : Nat) (now : Instant) (s : Site) :
    Progress interface Site (Except EngineError Unit) :=
  (p.engine.migrateTo t).run none none now s

/-- The migration to no version that follows it. -/
def back (t : Nat) (now : Instant) (s : Site) : Progress interface Site (Except EngineError Unit) :=
  (p.engine.migrateTo 0).run none none (p.there t now s).now (p.there t now s).machine

/-- What a migration says to the server that takes these steps. -/
def exchange (files : Files.Tree) (steps : List Step) : List Statement :=
  [.tryLock p.target.lockKey, .selectRow p.table] ++ steps.flatMap (p.talk files) ++
    [.unlock p.target.lockKey]

/-- Whether every known version up to `t` is gone through on the way up and on the way down, each
once and in order, and no row is left. A version is gone through from its dirty mark over its script
to its clean mark. -/
structure RunsEverything (t : Nat) (now : Instant) (s : Site) : Prop where
  up : (p.there t now s).activity = .ended (.finished (.ok ()))
  ups : (p.there t now s).machine.server.statements =
    s.server.statements ++ p.exchange s.session.files (p.source.ascent t)
  down : (p.back t now s).activity = .ended (.finished (.ok ()))
  downs : (p.back t now s).machine.server.statements =
    (p.there t now s).machine.server.statements ++ p.exchange s.session.files (p.source.descent t)
  row : (p.back t now s).machine.server.rowIn p.table = none

/-- Whether the files hold both scripts of every known version up to `t`. -/
def HasScripts (t : Nat) (s : Site) : Prop :=
  ∀ v ∈ p.source.versions, v ≤ t → ∀ d, ∃ text, p.source.readScript s.session.files d v = .ok text

end Plant

/-! ## One migration -/

/-- A migration that finds its scripts and no stop takes the steps of its plan. -/
theorem ensures_plan {row : Option Row} {sent : List Statement} {target : Nat} {steps : List Step}
    {m : Prompted Site} (hlimit : limit + base.session.lockTimeout ≤ Instant.horizon)
    (h : Goes p base .closed row sent [] m) (hclean : isDirty row = false)
    (hplan : p.source.plan ((Plant.ofRow row).map (·.version)) target = .ok steps)
    (hreadable : ∀ t ∈ steps, ∃ text, p.scriptText base.session.files t = .ok text) :
    (p.engine.migrateTo target).Ensures (base.clock limit) (fun o n => o = .finished (.ok ()) ∧
      Goes p base .closed (rowAfter row steps) (sent ++ p.exchange base.session.files steps) [] n)
        m := by
  have htrip : p.trip base.session.files row [] target = ⟨.ok (), rowAfter row steps,
      .selectRow p.table :: steps.flatMap (p.talk base.session.files), []⟩ := by
    simp [Plant.trip, hplan, heed_nil]
  have hmigrated : (p.engine.migrateTo target).Ensures (base.clock limit) _ m :=
    ensures_migrateTo hlimit h hclean fun steps' hsteps' => by
      rw [hplan] at hsteps'
      cases hsteps'
      exact hreadable
  rw [htrip] at hmigrated
  refine hmigrated.mono ?_
  rintro o n ⟨rfl, hn⟩
  refine ⟨rfl, ?_⟩
  simpa [Plant.exchange] using hn

/-- A migration of a site that nobody disturbs: how it ends, and how long it takes. -/
theorem undisturbed_migrateTo {row : Option Row} {sent : List Statement} {target : Nat}
    {steps : List Step} (hlimit : limit + base.session.lockTimeout ≤ Instant.horizon)
    (h : Undisturbed p base .closed row sent s) (hclean : isDirty row = false)
    (hplan : p.source.plan ((Plant.ofRow row).map (·.version)) target = .ok steps)
    (hreadable : ∀ t ∈ steps, ∃ text, p.scriptText base.session.files t = .ok text) :
    (p.engine.migrateTo target).Ensures (base.clock limit) (fun o n => o = .finished (.ok ()) ∧
      Undisturbed p base .closed (rowAfter row steps)
        (sent ++ p.exchange base.session.files steps) n) s := by
  have hprompted : (p.engine.migrateTo target).Ensures (base.clock limit) _
      (⟨s, []⟩ : Prompted Site) :=
    ensures_plan hlimit ⟨h, rfl⟩ hclean hplan hreadable
  exact Ensures.unprompted (hprompted.mono fun _ _ hn => ⟨hn.1, hn.2.toUndisturbed⟩)

theorem rowAfter_last (row : Option Row) {steps : List Step} (hne : steps ≠ []) :
    ∃ last, steps.getLast? = some last ∧ last ∈ steps ∧ rowAfter row steps = last.mark false := by
  have hlast := List.getLast?_eq_some_getLast hne
  refine ⟨steps.getLast hne, hlast, List.getLast_mem hne, ?_⟩
  unfold rowAfter
  rw [hlast]
  rfl

theorem plan_up (hknown : t ∈ p.source.versions) :
    p.source.plan none t = .ok (p.source.climb 0 t) := by
  have hreach : p.source.reaches t = true := Source.reaches_iff.2 (.inr hknown)
  have hstart : p.source.reaches ((none : Option Nat).getD 0) = true := by rfl
  rw [Source.plan_eq hreach hstart]
  by_cases hpos : 0 < t
  · simp [hpos]
  · obtain rfl : t = 0 := by omega
    simp [Source.climb_self, Source.descend_self]

theorem row_climbed (hknown : t ∈ p.source.versions) (hpos : 0 < t) :
    rowAfter none (p.source.climb 0 t) = written (toBigint t) false := by
  have hplan := plan_up hknown
  have hne : p.source.climb 0 t ≠ [] := by
    intro hnil
    rw [hnil] at hplan
    have hzero : (none : Option Nat).getD 0 = t := Source.plan_nil hplan
    simp at hzero
    omega
  obtain ⟨last, hlast, hmem, hrow⟩ := rowAfter_last none hne
  have hlevel := Source.plan_last hplan hlast
  obtain ⟨v, -, rfl⟩ := List.mem_map.1 hmem
  obtain rfl : v = t := hlevel
  exact hrow

theorem plan_down (hknown : t ∈ p.source.versions) :
    p.source.plan (some t) 0 = .ok (p.source.descend t 0) := by
  have hreach : p.source.reaches t = true := Source.reaches_iff.2 (.inr hknown)
  rw [Source.plan_eq (by rfl) hreach]
  simp

theorem row_descended (row : Option Row) (hzero : 0 ∉ p.source.versions)
    (hknown : t ∈ p.source.versions) :
    rowAfter row (p.source.descend t 0) = none := by
  have hplan := plan_down hknown
  have hne : p.source.descend t 0 ≠ [] := by
    intro hnil
    rw [hnil] at hplan
    obtain rfl : t = 0 := Source.plan_nil hplan
    exact hzero hknown
  obtain ⟨last, hlast, hmem, hrow⟩ := rowAfter_last row hne
  have hlevel := Source.plan_last hplan hlast
  obtain ⟨v, -, rfl⟩ := List.mem_map.1 hmem
  have hnone : p.source.prev? v = none := by
    cases hprev : p.source.prev? v with
    | none => rfl
    | some w =>
      have hw : w = 0 := by simpa [Step.level, Step.target, hprev] using hlevel
      exact absurd (hw ▸ (Source.prev?_mem hprev).1) hzero
  rw [hrow, Step.mark, Step.target, hnone]
  rfl

/-- What comes of a way whose steps are known, where the clock can show the end of the
lock's time. -/
theorem run_undisturbed {row : Option Row} {sent : List Statement} {target : Nat}
    {steps : List Step} (hlimit : limit + base.session.lockTimeout ≤ Instant.horizon)
    (h : Undisturbed p base .closed row sent s) (hclean : isDirty row = false)
    (hplan : p.source.plan ((Plant.ofRow row).map (·.version)) target = .ok steps)
    (hreadable : ∀ t ∈ steps, ∃ text, p.scriptText base.session.files t = .ok text)
    (hclock : ((p.engine.migrateTo target).run none none now s).now < limit) :
    ((p.engine.migrateTo target).run none none now s).activity = .ended (.finished (.ok ())) ∧
      Undisturbed p base .closed (rowAfter row steps)
        (sent ++ p.exchange base.session.files steps)
        ((p.engine.migrateTo target).run none none now s).machine := by
  have hrun := (p.engine.migrateTo target).run_eq_finish now s
  rw [hrun] at hclock ⊢
  obtain ⟨houtcome, hthere⟩ :=
    (undisturbed_migrateTo hlimit h hclean hplan hreadable).holds now hclock
  exact ⟨congrArg Activity.ended houtcome, hthere⟩

theorem readable_up (h : p.HasScripts t s) :
    ∀ step ∈ p.source.climb 0 t, ∃ text, p.scriptText s.session.files step = .ok text := by
  intro step hstep
  obtain ⟨v, hv, rfl⟩ := List.mem_map.1 hstep
  simp only [List.mem_filter, Bool.and_eq_true, decide_eq_true_eq] at hv
  exact h v hv.1 hv.2.2 .up

theorem readable_ascent (h : p.HasScripts t s) :
    ∀ step ∈ p.source.ascent t, ∃ text, p.scriptText s.session.files step = .ok text := by
  intro step hstep
  obtain ⟨v, hv, rfl⟩ := List.mem_map.1 hstep
  simp only [List.mem_filter, decide_eq_true_eq] at hv
  exact h v hv.1 hv.2 .up

theorem readable_down (h : p.HasScripts t s) :
    ∀ step ∈ p.source.descend t 0, ∃ text, p.scriptText s.session.files step = .ok text := by
  intro step hstep
  obtain ⟨v, hv, rfl⟩ := List.mem_map.1 hstep
  simp only [List.mem_filter, List.mem_reverse, Bool.and_eq_true, decide_eq_true_eq] at hv
  exact h v hv.1 hv.2.2 .down

theorem readable_descent (h : p.HasScripts t s) :
    ∀ step ∈ p.source.descent t, ∃ text, p.scriptText s.session.files step = .ok text := by
  intro step hstep
  obtain ⟨v, hv, rfl⟩ := List.mem_map.1 hstep
  simp only [List.mem_filter, List.mem_reverse, decide_eq_true_eq] at hv
  exact h v hv.1 hv.2 .down

theorem countP_exchange {files : Files.Tree} {steps : List Step}
    (h : ∀ t ∈ steps, ∃ text, p.scriptText files t = .ok text) :
    (p.exchange files steps).countP (·.beginsStep) = steps.length := by
  unfold Plant.exchange
  rw [List.countP_append, List.countP_append, countP_talks h]
  simp [Statement.beginsStep]

/-- Migrations that say the same take equally many steps. -/
theorem length_of_exchange {files : Files.Tree} {steps steps' : List Step}
    (hsteps : ∀ t ∈ steps, ∃ text, p.scriptText files t = .ok text)
    (hsteps' : ∀ t ∈ steps', ∃ text, p.scriptText files t = .ok text)
    (h : p.exchange files steps = p.exchange files steps') : steps.length = steps'.length := by
  rw [← countP_exchange hsteps, ← countP_exchange hsteps', h]

section RoundTrip

variable (hlimit : limit + s.session.lockTimeout ≤ Instant.horizon) (hfresh : s.Fresh p)
  (hknown : t ∈ p.source.versions) (hscripts : p.HasScripts t s)
  (hclock : (p.back t now s).now < limit)

include hlimit hfresh hknown hscripts hclock

theorem there_undisturbed : (p.there t now s).activity = .ended (.finished (.ok ())) ∧
    Undisturbed p s .closed (rowAfter none (p.source.climb 0 t))
      (p.exchange s.session.files (p.source.climb 0 t)) (p.there t now s).machine := by
  have hthere : (p.there t now s).now < limit := by
    refine Nat.lt_of_le_of_lt ?_ hclock
    unfold Plant.back
    rw [Program.run_eq_finish]
    exact Program.le_finish _ _ _
  exact run_undisturbed hlimit hfresh rfl (plan_up hknown) (readable_up hscripts) hthere

/-- Every script is run on the way up unless one is numbered 0. -/
theorem no_zero (h : p.RunsEverything t now s) : 0 ∉ p.source.versions := by
  intro hzero
  have hsent := (there_undisturbed hlimit hfresh hknown hscripts hclock).2.sent
  rw [h.ups] at hsent
  have hlength := length_of_exchange (readable_ascent hscripts) (readable_up hscripts)
    (List.append_cancel_left hsent)
  exact Source.climb_length_ne hzero hlength.symm

theorem back_undisturbed (hpos : 0 < t) (hsmall : t < 0x8000000000000000) :
    (p.back t now s).activity = .ended (.finished (.ok ())) ∧
      Undisturbed p s .closed (rowAfter (some ⟨t, false⟩) (p.source.descend t 0))
        (p.exchange s.session.files (p.source.climb 0 t) ++ p.exchange s.session.files
          (p.source.descend t 0))
        (p.back t now s).machine := by
  obtain ⟨-, hthere⟩ := there_undisturbed hlimit hfresh hknown hscripts hclock
  rw [row_climbed hknown hpos, toBigint_of_lt hsmall, written_clean] at hthere
  exact run_undisturbed hlimit hthere rfl (plan_down hknown) (readable_down hscripts) hclock

/-- A version that the version table cannot hold is recorded as none, and there is no way down from
it. -/
theorem back_silent (hpos : 0 < t) (hbig : 0x8000000000000000 ≤ t)
    (hsize : t < Migrations.FileName.versionLimit) :
    (p.back t now s).machine.server.statements =
      (p.there t now s).machine.server.statements ++ p.exchange s.session.files [] := by
  have hrow : rowAfter none (p.source.climb 0 t) = none := by
    have hnegative := toBigint_neg hbig hsize
    rw [row_climbed hknown hpos]
    unfold written Plant.hasRow
    simp [Int.not_le.2 hnegative]
  obtain ⟨-, hthere⟩ := there_undisturbed hlimit hfresh hknown hscripts hclock
  have hsent := hthere.sent
  rw [hrow] at hthere
  have hplan : p.source.plan none 0 = .ok [] := by
    have hstart : p.source.reaches ((none : Option Nat).getD 0) = true := by rfl
    rw [Source.plan_eq (by rfl) hstart]
    simp [Source.descend_self]
  have hback := (run_undisturbed hlimit hthere rfl hplan nofun hclock).2.sent
  rw [hsent, List.append_assoc]
  exact hback

end RoundTrip

theorem back_now (hlimit : limit + s.session.lockTimeout ≤ Instant.horizon) (hfresh : s.Fresh p)
    (hknown : t ∈ p.source.versions) (hscripts : p.HasScripts t s)
    (hpos : 0 < t) (hsmall : t < 0x8000000000000000) (hrules : s.server.rules = [])
    (hnow : now < limit) : (p.back t now s).now = now := by
  have hup := undisturbed_migrateTo hlimit hfresh rfl (plan_up hknown) (readable_up hscripts)
  have hthere : (p.there t now s).now = now := by
    unfold Plant.there
    rw [Program.run_eq_finish]
    exact hup.stands hrules now hnow
  have hearly : (p.there t now s).now < limit := hthere.symm ▸ hnow
  obtain ⟨-, hmachine⟩ :=
    run_undisturbed hlimit hfresh rfl (plan_up hknown) (readable_up hscripts) hearly
  rw [row_climbed hknown hpos, toBigint_of_lt hsmall, written_clean] at hmachine
  have hdown :=
    undisturbed_migrateTo hlimit hmachine rfl (plan_down hknown) (readable_down hscripts)
  unfold Plant.back
  rw [Program.run_eq_finish, hthere]
  exact hdown.stands hrules now hnow

/-- **Every known migration is run**, up to a known version and down again to no row, if and only if
no script is numbered 0 and the version table can hold the version. -/
theorem runsEverything_iff (hfresh : s.Fresh p) (hknown : t ∈ p.source.versions)
    (hsize : t < Migrations.FileName.versionLimit) (hscripts : p.HasScripts t s)
    (hclock : (p.back t now s).now + s.session.lockTimeout < Instant.horizon) :
    p.RunsEverything t now s ↔ 0 ∉ p.source.versions ∧ t < 0x8000000000000000 := by
  obtain ⟨limit, hlimit⟩ : ∃ limit, limit + s.session.lockTimeout = Instant.horizon :=
    ⟨_, Nat.sub_add_cancel (Nat.le_of_lt (Nat.lt_of_le_of_lt (Nat.le_add_left _ _) hclock))⟩
  have hclock' : (p.back t now s).now < limit := Nat.lt_of_add_lt_add_right (hlimit.symm ▸ hclock)
  replace hlimit := Nat.le_of_eq hlimit
  constructor
  · intro h
    have hzero := no_zero hlimit hfresh hknown hscripts hclock' h
    have hpos : 0 < t := Nat.pos_of_ne_zero fun h => hzero (h ▸ hknown)
    refine ⟨hzero, Nat.lt_of_not_le fun hbig => ?_⟩
    have hsilent := back_silent hlimit hfresh hknown hscripts hclock' hpos hbig hsize
    rw [h.downs] at hsilent
    have hlength : (p.source.descent t).length = ([] : List Step).length :=
      length_of_exchange (readable_descent hscripts) nofun (List.append_cancel_left hsilent)
    have hmem : Step.down t (p.source.prev? t) ∈ p.source.descent t := by
      unfold Source.descent
      simp only [List.mem_map, List.mem_filter, List.mem_reverse, decide_eq_true_eq]
      exact ⟨t, ⟨hknown, Nat.le_refl t⟩, rfl⟩
    rw [List.length_eq_zero_iff.1 hlength] at hmem
    cases hmem
  · rintro ⟨hzero, hsmall⟩
    obtain ⟨hup, hthere⟩ := there_undisturbed hlimit hfresh hknown hscripts hclock'
    have hpos : 0 < t := Nat.pos_of_ne_zero fun h => hzero (h ▸ hknown)
    obtain ⟨hdown, hback⟩ := back_undisturbed hlimit hfresh hknown hscripts hclock' hpos hsmall
    rw [row_descended _ hzero hknown] at hback
    have hups := hthere.sent
    have hdowns := hback.sent
    rw [Source.climb_eq_ascent hzero] at hups hdowns
    rw [Source.descend_eq_descent hzero] at hdowns
    refine ⟨hup, hups, hdown, ?_, hback.row⟩
    rw [hdowns, hups, List.append_assoc]

/-! ### Two versions, with and without 0 -/

def fileOf (name text : String) : Files.Place × Files.Entry :=
  ([Files.Tree.nameOf name.toList], .file (Text.Utf8.encode text.toList))

/-- A plant whose source is a list of versions. -/
def plantOf (versions : List (Nat × String × String)) : Plant where
  source :=
    { root := "/"
      up := versions.map fun (v, up, _) => ⟨v, "", .up, "/" ++ up⟩
      down := versions.map fun (v, _, down) => ⟨v, "", .down, "/" ++ down⟩ }
  target := ⟨⟨"postgres".toList, none, [], none, none⟩, "app".toList, Target.defaultTable, true⟩

def oneAndTwo : Plant := plantOf [(1, "up1", "down1"), (2, "up2", "down2")]

def zeroAndOne : Plant := plantOf [(0, "up0", "down0"), (1, "up1", "down1")]

/-- An engine that has just been opened, and the scripts of three versions. -/
def opened : Site where
  session :=
    { isConnected := true
      files :=
        { entries := [fileOf "up0" "UP ZERO;", fileOf "down0" "DOWN ZERO;", fileOf "up1" "UP ONE;",
            fileOf "down1" "DOWN ONE;", fileOf "up2" "UP TWO;", fileOf "down2" "DOWN TWO;"] } }

theorem opened_fresh (p : Plant) : opened.Fresh p where
  client := rfl
  files := rfl
  lockTimeout := rfl
  stop := rfl
  connected := rfl
  paid := rfl
  unfailing := nofun
  quiet := fun h => h
  granting := rfl
  alone := nofun
  draft := rfl
  row := rfl
  sent := rfl

/-- A source of two versions whose scripts can all be read. -/
theorem hasScripts_two {v w : Nat} (hversions : p.source.versions = [v, w])
    (hv : ∀ d, ∃ text, p.source.readScript s.session.files d v = .ok text)
    (hw : ∀ d, ∃ text, p.source.readScript s.session.files d w = .ok text) : p.HasScripts t s := by
  intro u hu _ d
  rw [hversions, List.mem_cons, List.mem_singleton] at hu
  rcases hu with rfl | rfl
  · exact hv d
  · exact hw d

theorem oneAndTwo_scripts : oneAndTwo.HasScripts 2 opened := by
  refine hasScripts_two (v := 1) (w := 2) (by rfl) ?_ ?_
  · intro d
    cases d with
    | up => exact ⟨"UP ONE;", by cbv⟩
    | down => exact ⟨"DOWN ONE;", by cbv⟩
  · intro d
    cases d with
    | up => exact ⟨"UP TWO;", by cbv⟩
    | down => exact ⟨"DOWN TWO;", by cbv⟩

theorem zeroAndOne_scripts : zeroAndOne.HasScripts 1 opened := by
  refine hasScripts_two (v := 0) (w := 1) (by rfl) ?_ ?_
  · intro d
    cases d with
    | up => exact ⟨"UP ZERO;", by cbv⟩
    | down => exact ⟨"DOWN ZERO;", by cbv⟩
  · intro d
    cases d with
    | up => exact ⟨"UP ONE;", by cbv⟩
    | down => exact ⟨"DOWN ONE;", by cbv⟩

theorem runsEverything_iff_oneAndTwo : opened.Fresh oneAndTwo ∧ 2 ∈ oneAndTwo.source.versions ∧
    2 < Migrations.FileName.versionLimit ∧ oneAndTwo.HasScripts 2 opened ∧
      (oneAndTwo.back 2 0 opened).now + opened.session.lockTimeout < Instant.horizon ∧
        (oneAndTwo.RunsEverything 2 0 opened ↔
          0 ∉ oneAndTwo.source.versions ∧ 2 < 0x8000000000000000) := by
  have hfresh := opened_fresh oneAndTwo
  have hknown : 2 ∈ oneAndTwo.source.versions := by decide
  have hsize : 2 < Migrations.FileName.versionLimit := by decide
  have hlimit : 1 + opened.session.lockTimeout ≤ Instant.horizon := by decide
  have hnow : (oneAndTwo.back 2 0 opened).now = 0 :=
    back_now hlimit hfresh hknown oneAndTwo_scripts (by decide) (by decide) rfl (by decide)
  have hclock : (oneAndTwo.back 2 0 opened).now + opened.session.lockTimeout < Instant.horizon := by
    rw [hnow]
    decide
  exact ⟨hfresh, hknown, hsize, oneAndTwo_scripts, hclock,
    runsEverything_iff hfresh hknown hsize oneAndTwo_scripts hclock⟩

/-- **A version 0 is passed over**: its scripts are run neither on the way up nor on the way down,
and it stays recorded. -/
theorem zero_passed_over : opened.Fresh zeroAndOne ∧ 1 ∈ zeroAndOne.source.versions ∧
    zeroAndOne.HasScripts 1 opened ∧ (zeroAndOne.back 1 0 opened).now = 0 ∧
      ¬ zeroAndOne.RunsEverything 1 0 opened ∧
        (zeroAndOne.back 1 0 opened).machine.server.rowIn zeroAndOne.table = some ⟨0, false⟩ := by
  have hfresh := opened_fresh zeroAndOne
  have hknown : 1 ∈ zeroAndOne.source.versions := by decide
  have hlimit : 1 + opened.session.lockTimeout ≤ Instant.horizon := by decide
  have hnow : (zeroAndOne.back 1 0 opened).now = 0 :=
    back_now hlimit hfresh hknown zeroAndOne_scripts (by decide) (by decide) rfl (by decide)
  have hclock : (zeroAndOne.back 1 0 opened).now < 1 := by
    rw [hnow]
    decide
  have hback :=
    back_undisturbed hlimit hfresh hknown zeroAndOne_scripts hclock (by decide) (by decide)
  refine ⟨hfresh, hknown, zeroAndOne_scripts, hnow, ?_, hback.2.row.trans (by decide)⟩
  intro h
  exact no_zero hlimit hfresh hknown zeroAndOne_scripts hclock h (by decide)

end Postgres

end Stairway
