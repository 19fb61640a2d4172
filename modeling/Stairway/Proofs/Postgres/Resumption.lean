import Stairway.Proofs.Migrations.Neighbours
import Stairway.Proofs.Postgres.Strides

/-!
# A migration that is cut off

One session migrates, and is cut off anywhere: it is asked to stop, a script cannot be read, the
server refuses a statement, or the session is simply not moved any more. `Halt` lists how far it can
have come: between two steps, with the next script read, or within a step. So the trail is that of
the first steps of the plan, done completely but for the last, and the version table tells which
they are.

`migrateTo_survives_cuts` says so of every run. If the table is clean then what is left of the plan
is the plan from the version in the table, and migrating again goes on where this one has stopped;
if it is dirty then it names the step that did not finish.
-/

namespace Stairway.Postgres

/-! ## Rows -/

theorem isDirty_written (version : Int) (dirty : Bool) :
    isDirty (written version dirty) = dirty := by
  unfold isDirty schemaOf written Plant.hasRow
  cases dirty with
  | true =>
    by_cases hversion : 0 ≤ version
    · simp [Plant.ofRow, hversion]
    · simp [Plant.ofRow, hversion]
  | false =>
    by_cases hversion : 0 ≤ version
    · simp [Plant.ofRow, hversion]
    · simp [Plant.ofRow, hversion]

@[simp] theorem isDirty_mark (t : Step) (dirty : Bool) : isDirty (t.mark dirty) = dirty :=
  isDirty_written _ dirty

/-- The version that a row stands for, none if it stands for none. -/
def versionOf (row : Option Row) : Option Nat := (Plant.ofRow row).map (·.version)

theorem versionOf_mark {t : Step} (hfits : ∀ v, t.target = some v → v < 0x8000000000000000) :
    versionOf (t.mark false) = t.target := by
  unfold versionOf Step.mark
  cases htarget : t.target with
  | none => rfl
  | some v =>
    rw [recorded_of_lt (hfits v htarget), written_clean]
    simp [Plant.ofRow]

theorem plan?_eq_some {p : Plant} {row : Option Row} {target : Nat} {steps : List Step} :
    (Call.migrateTo target).plan? p row = some steps ↔
      isDirty row = false ∧ p.source.plan (versionOf row) target = .ok steps := by
  simp only [Call.plan?, versionOf]
  cases isDirty row with
  | true => simp
  | false => cases p.source.plan ((Plant.ofRow row).map (·.version)) target <;>
      simp [Except.toOption]

/-! ## Steps that are done -/

/-- The row that steps leave recorded. -/
def reached : Option Row → List (Step × String) → Option Row
  | row, [] => row
  | _, (t, _) :: rest => reached (t.mark false) rest

/-- What one step leaves in the trail; a blank script is not sent. -/
def stepTrail (i : ClientId) (before : Option Row) (t : Step) (text : String) : List Footprint :=
  [.read i t.direction t.version text, .marked i before (t.mark true)] ++
    (if Plant.isBlank text then [] else [.ran i text true]) ++
      [.marked i (t.mark true) (t.mark false)]

/-- What steps leave in the trail, with the scripts that were read for them. -/
def walked (i : ClientId) : Option Row → List (Step × String) → List Footprint
  | _, [] => []
  | row, (t, text) :: rest => stepTrail i row t text ++ walked i (t.mark false) rest

theorem reached_snoc (start : Option Row) (done : List (Step × String)) (t : Step) (text : String) :
    reached start (done ++ [(t, text)]) = t.mark false := by
  induction done generalizing start with
  | nil => rfl
  | cons x rest ih => exact ih (x.1.mark false)

theorem walked_snoc (i : ClientId) (start : Option Row) (done : List (Step × String)) (t : Step)
    (text : String) :
    walked i start (done ++ [(t, text)]) = walked i start done ++
      stepTrail i (reached start done) t text := by
  induction done generalizing start with
  | nil => simp [walked, reached]
  | cons x rest ih =>
    obtain ⟨t', text'⟩ := x
    simp [walked, reached, ih]

theorem isDirty_reached {start : Option Row} (hstart : isDirty start = false)
    (done : List (Step × String)) :
    isDirty (reached start done) = false := by
  induction done generalizing start with
  | nil => exact hstart
  | cons x rest ih => exact ih (isDirty_mark x.1 false)

/-- **What is left of a plan is the plan from where it was broken off.** -/
theorem plan_reached {p : Plant} (hfits : p.source.Fits) {start : Option Row} {target : Nat}
    {done : List (Step × String)} {rest : List Step}
    (h : p.source.plan (versionOf start) target = .ok (done.map (·.1) ++ rest)) :
    p.source.plan (versionOf (reached start done)) target = .ok rest := by
  rcases List.eq_nil_or_concat done with rfl | ⟨done, ⟨t, text⟩, rfl⟩
  · exact h
  · have hsteps : p.source.plan (versionOf start) target = .ok (done.map (·.1) ++ t :: rest) := by
      simpa using h
    have ht : ∀ v, t.target = some v → v < 0x8000000000000000 := hfits.target hsteps t (by simp)
    rw [List.concat_eq_append, reached_snoc, versionOf_mark ht]
    exact Source.plan_resume_append hsteps

/-! ## Where a migration can halt -/

/-- How far a migration along `steps` can have come: the trail that it has left, and the row that is
recorded. -/
inductive Halt (i : ClientId) (start : Option Row) (steps : List Step) :
    List Footprint → Option Row → Prop where
  | between (done : List (Step × String)) (rest : List Step) (h : steps = done.map (·.1) ++ rest) :
    Halt i start steps (walked i start done) (reached start done)
  | reading (done : List (Step × String)) (t : Step) (text : String) (rest : List Step)
    (h : steps = done.map (·.1) ++ t :: rest) :
    Halt i start steps (walked i start done ++ [.read i t.direction t.version text])
      (reached start done)
  | within (done : List (Step × String)) (t : Step) (text : String) (ran : Option Bool)
      (rest : List Step)
    (h : steps = done.map (·.1) ++ t :: rest)
      (hfull : ran.isSome = true → Plant.isBlank text = false) :
    Halt i start steps
      (walked i start done ++
        [.read i t.direction t.version text, .marked i (reached start done) (t.mark true)]
        ++ (ran.map (.ran i text)).toList) (t.mark true)

/-- The same, with the leg on which it is. -/
inductive Came (i : ClientId) (start : Option Row) (plan : Option (List Step)) :
    Leg → List Footprint → Option Row → Prop where
  | idle : Came i start plan .idle [] start
  | steady (done : List (Step × String)) (rest : List Step)
      (h : plan = some (done.map (·.1) ++ rest)) :
    Came i start plan (.steady (reached start done) rest) (walked i start done) (reached start done)
  | primed (done : List (Step × String)) (t : Step) (text : String) (rest : List Step)
    (h : plan = some (done.map (·.1) ++ t :: rest)) :
    Came i start plan (.primed (reached start done) t text rest)
      (walked i start done ++ [.read i t.direction t.version text]) (reached start done)
  | begun (done : List (Step × String)) (t : Step) (text : String) (ran : Option Bool)
      (rest : List Step)
    (h : plan = some (done.map (·.1) ++ t :: rest))
      (hfull : ran.isSome = true → Plant.isBlank text = false) :
    Came i start plan (.begun (reached start done) t text ran rest)
      (walked i start done ++
        [.read i t.direction t.version text, .marked i (reached start done) (t.mark true)]
        ++ (ran.map (.ran i text)).toList) (t.mark true)
  | left {leg : Leg} {tr : List Footprint} {row : Option Row} (h : Came i start plan leg tr row) :
    Came i start plan (.left leg.hasArrived) tr row

namespace Came

variable {i : ClientId} {start row row' : Option Row} {plan : Option (List Step)} {leg leg' : Leg}
  {tr : List Footprint} {f : Option Footprint}

/-- **An answer takes a migration one stride on.** -/
theorem stride {p : Plant} {target : Nat} (h : Came i start plan leg tr row)
    (hplan : plan = (Call.migrateTo target).plan? p start)
    (hs : Stride p (.migrateTo target) i row leg f row' leg') :
    Came i start plan leg' (tr ++ f.toList) row' := by
  cases hs with
  | still => simpa using h
  | look hsteps =>
    cases h
    rw [hplan, hsteps]
    exact .steady [] _ rfl
  | read base t text rest =>
    cases h with
    | steady done rest' h => exact .primed done t text rest h
  | enter base t text rest =>
    cases h with
    | primed done t' text' rest' h =>
      have hbegun : Came i start plan (.begun (reached start done) t text none rest)
          (walked i start done ++ [.read i t.direction t.version text,
            .marked i (reached start done) (t.mark true)] ++ (Option.map (.ran i text) none).toList)
          (t.mark true) := .begun done t text none rest h nofun
      simpa using hbegun
  | run base t text ok rest hfull =>
    cases h with
    | begun done t' text' ran rest' h _ =>
      rw [Option.map_none, Option.toList_none, List.append_nil]
      exact .begun done t text (some ok) rest h fun _ => hfull
  | @finish base t text ran rest hran =>
    cases h with
    | begun done t' text' ran' rest' h hfull =>
      have hsteady : Came i start plan (.steady (reached start (done ++ [(t, text)])) rest)
          (walked i start (done ++ [(t, text)])) (reached start (done ++ [(t, text)])) :=
        .steady _ rest (by simpa using h)
      rw [reached_snoc, walked_snoc] at hsteady
      have hsent : (if Plant.isBlank text then [] else [Footprint.ran i text true]) =
          (ran.map (.ran i text)).toList := by
        rcases hran with rfl | ⟨rfl, hblank⟩
        · simp [hfull rfl]
        · simp [hblank]
      simpa [stepTrail, hsent] using hsteady
  | force hc => cases hc
  | leave => simpa using h.left

/-- Where it has come to is one of the places where it can halt. -/
theorem halt (h : Came i start plan leg tr row) : Halt i start (plan.getD []) tr row := by
  induction h with
  | idle => exact .between [] _ rfl
  | steady done rest h =>
    subst h
    exact .between done rest rfl
  | primed done t text rest h =>
    subst h
    exact .reading done t text rest rfl
  | begun done t text ran rest h hfull =>
    subst h
    exact .within done t text ran rest rfl hfull
  | left _ ih => exact ih

/-- What has arrived has done all that was planned. -/
theorem arrived (h : Came i start plan (.left true) tr row) :
    ∃ done : List (Step × String), plan = some (done.map (·.1)) ∧ tr = walked i start done ∧
      row = reached start done := by
  generalize hleft : Leg.left true = leg at h
  cases h with
  | left hcame =>
    cases hcame with
    | steady done rest h =>
      cases rest with
      | nil => exact ⟨done, by simpa using h, rfl, rfl⟩
      | cons t rest => cases hleft
    | _ => cases hleft
  | _ => cases hleft

/-- Where nothing could be planned, nothing has happened. -/
theorem unplanned (h : Came i start none leg tr row) : tr = [] ∧ row = start := by
  generalize hplan : (none : Option (List Step)) = plan at h
  induction h with
  | idle => exact ⟨rfl, rfl⟩
  | left _ ih => exact ih
  | steady _ _ h => cases hplan.trans h
  | primed _ _ _ _ h => cases hplan.trans h
  | begun _ _ _ _ _ h _ => cases hplan.trans h

end Came

/-! ## What a trail says -/

/-- The scripts that were sent. -/
def sent (tr : List Footprint) : List String :=
  tr.filterMap fun f => match f with
    | .ran _ text _ => some text
    | _ => none

theorem sent_append (tr tr' : List Footprint) : sent (tr ++ tr') = sent tr ++ sent tr' :=
  List.filterMap_append

/-- Scripts that hold something. -/
def scripts (steps : List (Step × String)) : List String :=
  (steps.filter fun x => !Plant.isBlank x.2).map (·.2)

theorem sent_walked (i : ClientId) (start : Option Row) (done : List (Step × String)) :
    sent (walked i start done) = scripts done := by
  induction done generalizing start with
  | nil => rfl
  | cons x rest ih =>
    obtain ⟨t, text⟩ := x
    rw [walked, sent_append, ih]
    cases hblank : Plant.isBlank text with
    | true => simp [stepTrail, sent, scripts, hblank]
    | false => simp [stepTrail, sent, scripts, hblank]

/-- A step that is done has had its script run to the end. -/
theorem ok_of_walked {i j : ClientId} {start : Option Row} {done : List (Step × String)}
    {text : String} {ok : Bool}
    (h : Footprint.ran j text ok ∈ walked i start done) : ok = true := by
  induction done generalizing start with
  | nil => cases h
  | cons x rest ih =>
    obtain ⟨t, text'⟩ := x
    rcases List.mem_append.1 h with h | h
    · cases hblank : Plant.isBlank text' with
      | true => simp [stepTrail, hblank] at h
      | false =>
        simp [stepTrail, hblank] at h
        exact h.2.2
    · exact ih h

/-- What is left where a migration along `steps` was cut off. -/
structure Survives (p : Plant) (i : ClientId) (target : Nat) (start : Option Row)
    (steps : List Step) (tr : List Footprint) (row : Option Row) : Prop where
  halt : Halt i start steps tr row
  /-- The scripts that were sent are those of the first steps, in their order. -/
  inOrder : ∃ begun : List (Step × String), begun.map (·.1) <+: steps ∧ sent tr = scripts begun
  /-- A clean row is what the last step that was done has recorded; every script that was sent
  belongs to such a step and has succeeded, and migrating again takes the steps that are left. -/
  clean : isDirty row = false → ∃ (done : List (Step × String)) (rest : List Step),
    steps = done.map (·.1) ++ rest ∧ row = reached start done ∧ sent tr = scripts done ∧
      (∀ text ok, .ran i text ok ∈ tr → ok = true) ∧ p.source.plan (versionOf row) target = .ok rest
  /-- A dirty row names the step that was begun last, and all steps before it were done. -/
  dirty : isDirty row = true →
    ∃ (done : List (Step × String)) (t : Step) (text : String) (ran : Option Bool)
    (rest : List Step), steps = done.map (·.1) ++ t :: rest ∧ row = t.mark true ∧
      tr = walked i start done ++
        [.read i t.direction t.version text, .marked i (reached start done) row] ++
          (ran.map (.ran i text)).toList

theorem Halt.survives {p : Plant} (hfits : p.source.Fits) {i : ClientId} {target : Nat}
    {start row : Option Row} {steps : List Step} {tr : List Footprint}
    (h : Halt i start steps tr row) (hstart : isDirty start = false)
    (hplan : p.source.plan (versionOf start) target = .ok steps) :
    Survives p i target start steps tr row := by
  refine ⟨h, ?_, ?_, ?_⟩
  · cases h with
    | between done rest hsteps =>
      exact ⟨done, ⟨rest, hsteps.symm⟩, sent_walked i start done⟩
    | reading done t text rest hsteps =>
      refine ⟨done, ⟨t :: rest, hsteps.symm⟩, ?_⟩
      rw [sent_append, sent_walked]
      exact List.append_nil _
    | within done t text ran rest hsteps hfull =>
      cases ran with
      | none =>
        refine ⟨done, ⟨t :: rest, hsteps.symm⟩, ?_⟩
        rw [sent_append, sent_append, sent_walked]
        simp [sent]
      | some ok =>
        refine ⟨done ++ [(t, text)], ⟨rest, by simp [hsteps]⟩, ?_⟩
        rw [sent_append, sent_append, sent_walked]
        simp [sent, scripts, hfull rfl]
  · intro hclean
    cases h with
    | between done rest hsteps =>
      refine ⟨done, rest, hsteps, rfl, sent_walked i start done, fun _ _ => ok_of_walked, ?_⟩
      exact plan_reached hfits (hsteps ▸ hplan)
    | reading done t text rest hsteps =>
      refine ⟨done, t :: rest, hsteps, rfl, ?_, ?_, plan_reached hfits (hsteps ▸ hplan)⟩
      · rw [sent_append, sent_walked]
        exact List.append_nil _
      · intro text' ok hran
        exact ok_of_walked (by simpa using hran)
    | within => simp at hclean
  · intro hdirty
    cases h with
    | between done rest hsteps => simp [isDirty_reached hstart done] at hdirty
    | reading done t text rest hsteps => simp [isDirty_reached hstart done] at hdirty
    | within done t text ran rest hsteps _ => exact ⟨done, t, text, ran, rest, hsteps, rfl, rfl⟩

/-! ## Runs of one session -/

/-- Whether a turn moves nobody but one client, and begins nothing. -/
def Turn.GoesOn (i : ClientId) : Turn → Prop
  | begin _ _ => False
  | advance j _ => j = i
  | requestStop j => j = i

theorem came_preserved (p : Plant) (i : ClientId) (target : Nat) (start : Option Row) :
    Traffic.Preserves (fun _ => p) p.target.lockKey (Turn.GoesOn i) fun heard w =>
      (heard i).blind = false ∧ (w.lines i).call = .migrateTo target ∧
        Came i start ((Call.migrateTo target).plan? p start) (heard i).leg (trail p.table w.journal)
          (w.server.rowIn p.table) where
  aside hI hjournal hserver hcalls := by
    rw [hjournal, hserver, hcalls]
    exact hI
  begin _ _ hT := hT.elim
  ask j e r next hT h hI hrest := by
    obtain rfl : j = i := hT
    obtain ⟨hblind, hcall, hcame⟩ := hI
    obtain ⟨f, htrail, -, hstride⟩ := h.ask_stride hrest hblind e
    rw [hcall] at hstride ⊢
    refine ⟨?_, ?_, ?_⟩
    · simpa [Bearings.hear] using hblind
    · simpa [Traffic.ask] using hcall
    · rw [htrail, retell_self]
      exact hcame.stride rfl hstride

/-- **A migration survives being cut off.** A session migrates a table that is absent or clean, and
goes on as far as it may, whatever it is answered. If the source can plan the way, then the table
and the trail tell how far it has come, and if it has returned with success then everything that was
planned is done; otherwise nothing has happened. -/
theorem migrateTo_survives_cuts (p : Plant) (hfits : p.source.Fits) (server : Server)
    (sessions : ClientId → Session) (hclean : isDirty (server.rowIn p.table) = false) (i : ClientId)
    (target : Nat) (turns : List Turn) (hturns : ∀ t ∈ turns, t.GoesOn i) :
    let w :=
  (Traffic.opening server sessions).run (fun _ => p) (.begin i (.migrateTo target) :: turns)
    let start := server.rowIn p.table
    let row := w.server.rowIn p.table
    let tr := trail p.table w.journal
    match p.source.plan (versionOf start) target with
    | .ok steps => Survives p i target start steps tr row ∧ ((w.lines i).rest = .done (.ok ()) →
        ∃ done : List (Step × String), steps = done.map (·.1) ∧ tr = walked i start done ∧
          row = reached start done)
    | .error _ => tr = [] ∧ row = start ∧ (w.lines i).rest ≠ .done (.ok ()) := by
  intro w start row tr
  have hkey : ∀ j : ClientId, ((fun _ => p) j).target.lockKey = p.target.lockKey := fun _ => rfl
  have hopening := Traffic.Sound.opening (fun _ => p) p.target.lockKey server sessions
  have hbegin := hopening.begin (i := i) (show (Call.migrateTo target).Suits p from trivial)
    (.inr (Standing.settled_of_closed rfl)) nofun
  have hsuits : ∀ t ∈ turns, t.Suits (fun _ => p) ∧ t.GoesOn i := by
    intro t ht
    refine ⟨?_, hturns t ht⟩
    cases t with
    | begin j call => exact (hturns _ ht).elim
    | _ => trivial
  obtain ⟨heard, hsound, -, hcall, hcame⟩ :=
    (came_preserved p i target start).run hkey turns hsuits hbegin
    ⟨by simp [Bearings.fresh], by simp [Traffic.put], by rw [retell_self]; exact .idle⟩
  have hended : (w.lines i).rest = .done (.ok ()) → (heard i).leg = .left true := by
    intro hdone
    have hobeys : (w.lines i).rest.Obeys (conduct p (w.lines i).call)
        (w.lines i).call.Closes (heard i) :=
      hsound.obeys i
    rw [hdone] at hobeys
    exact hobeys.2 ⟨target, hcall⟩ rfl
  split
  · next steps hplan =>
    have hsteps : (Call.migrateTo target).plan? p start = some steps :=
      plan?_eq_some.2 ⟨hclean, hplan⟩
    rw [hsteps] at hcame
    refine ⟨hcame.halt.survives hfits hclean hplan, fun hdone => ?_⟩
    rw [hended hdone] at hcame
    obtain ⟨done, hall, htrail, hrow⟩ := hcame.arrived
    exact ⟨done, by simpa using hall, htrail, hrow⟩
  · next e hplan =>
    have hnone : (Call.migrateTo target).plan? p start = none := by
      cases hsteps : (Call.migrateTo target).plan? p start with
      | none => rfl
      | some steps =>
        rw [(plan?_eq_some.1 hsteps).2] at hplan
        cases hplan
    rw [hnone] at hcame
    refine ⟨hcame.unplanned.1, hcame.unplanned.2, fun hdone => ?_⟩
    rw [hended hdone] at hcame
    obtain ⟨done, hall, -⟩ := hcame.arrived
    cases hall

/-! ### A migration that is cut off in its second step -/

/-- A session that has migrated for so many answers. -/
def cutOff (answers : Nat) : Traffic :=
  (Traffic.opening atVersionOne connected).run (fun _ => threeVersions)
    (.begin 0 (.migrateTo 3) :: strides 0 answers)

theorem migrateTo_survives_cuts_midway :
    ((cutOff 40).server.rowIn threeVersions.table = some ⟨3, true⟩ ∧
      Survives threeVersions 0 3 (some ⟨1, false⟩) [.up 2, .up 3]
        (trail threeVersions.table (cutOff 40).journal)
        ((cutOff 40).server.rowIn threeVersions.table)) := by
  have hturns : ∀ t ∈ strides 0 40, t.GoesOn 0 := by
    intro t ht
    rw [List.eq_of_mem_replicate ht]
    rfl
  have hrun :=
    migrateTo_survives_cuts threeVersions (by decide) atVersionOne connected (by decide) 0 3
    (strides 0 40) hturns
  have hplan : threeVersions.source.plan (versionOf (atVersionOne.rowIn threeVersions.table)) 3 =
      .ok [.up 2, .up 3] := rfl
  simp only [hplan] at hrun
  exact ⟨by decide +kernel, hrun.1⟩

end Stairway.Postgres
