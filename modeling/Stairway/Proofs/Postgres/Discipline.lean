import Stairway.Proofs.Controller.Operations
import Stairway.Proofs.Postgres.Locking
import Stairway.Proofs.Postgres.World

/-!
# Operations keep to their protocol

Every program of the engine is followed once, from the bottom up, and said to obey `etiquette`. A
step starts where `At` holds of the version it starts from, and leads to where it holds of the
version it records (`obeys_takeStep`), so a plan is followed by induction.

The result is `Job.obeys`: whatever the owner of a session has it do, from wherever the last job
left the session, the protocol is kept. That a step records the version that it leads to is carried
along for sources whose versions fit the version table (`Source.Fits`).
-/

namespace Stairway.Postgres

open Program (ending onSuccess obeys_andThen)
open Standing (Settled Held)

/-! ## Rows -/

theorem bmod_of_lt {n m : Nat} (h : 2 * n < m) : (Int.ofNat n).bmod m = n := by
  rw [Int.bmod_eq_of_le] <;> simp only [Int.ofNat_eq_natCast] <;> omega

theorem toBigint_of_lt {v : Nat} (h : v < 0x8000000000000000) : toBigint v = v :=
  bmod_of_lt (by omega)

/-- A larger version of 64 bits comes out negative. -/
theorem toBigint_neg {v : Nat} (hbig : 0x8000000000000000 ≤ v) (hsize : v < 0x10000000000000000) :
    toBigint v < 0 := by
  unfold toBigint Int.bmod
  simp only [Int.ofNat_eq_natCast]
  omega

theorem toBigint_lt (v : Nat) : toBigint v < 0x8000000000000000 := by
  have hlt : toBigint v < (0x10000000000000000 + 1) / 2 := Int.bmod_lt (by decide)
  omega

theorem recorded_of_lt {v : Nat} (h : v < 0x8000000000000000) : Plant.recorded (some v) = v := by
  rw [Plant.recorded, toBigint_of_lt h]

theorem schemaOf_row (v : Nat) (dirty : Bool) : schemaOf (some ⟨v, dirty⟩) = ⟨v, dirty⟩ := by
  simp [schemaOf, Plant.ofRow]

/-- Writing a version that fits records it. -/
theorem schemaOf_written {target : Option Nat} {dirty : Bool}
    (hfits : ∀ v, target = some v → v < 0x8000000000000000) :
    schemaOf (written (Plant.recorded target) dirty) = ⟨target.getD 0, dirty⟩ := by
  cases target with
  | none => cases dirty <;> rfl
  | some v =>
    have hrow : written (Plant.recorded (some v)) dirty = some ⟨v, dirty⟩ := by
      rw [recorded_of_lt (hfits v rfl)]
      simp [written, Plant.hasRow]
    rw [hrow]
    exact schemaOf_row v dirty

theorem written_clean (v : Nat) : written v false = some ⟨v, false⟩ := by
  simp [written, Plant.hasRow]

/-! ## Writing a version -/

section Steps

variable {p : Plant} {kind : Transition} {desired : Nat} {s : Standing}

theorem replaceRow_eq (version : Int) (dirty : Bool) :
    p.replaceRow version dirty = send (.truncate p.table) >>= fun _ =>
      (if Plant.hasRow version dirty then send (.insert p.table ⟨version, dirty⟩) else pure ()) >>=
        fun _ => send .commit := by
  unfold Plant.replaceRow
  congr
  funext _
  split <;> rfl

/-- Between the two ends of a transaction a failure leaves it open, for the caller to see to. -/
theorem obeys_replaceRow {version : Int} {dirty : Bool} (hs : s.Held)
    (hw : Writes p kind desired s (written version dirty)) :
    (p.replaceRow version dirty).run.Obeys (etiquette p kind desired)
      (ending (fun _ t => t = { s with known := some (written version dirty), hasWritten := true })
        (fun _ => True) fun _ => False) { s with draft := .blank } := by
  have hcalm : ∀ draft, Standing.calm { s with draft } = { s with draft } := fun draft =>
    Standing.calm_of_paid hs.paid
  rw [replaceRow_eq]
  refine obeys_andThen (R := fun _ t => t = { s with draft := .row none }) ?_ ?_
  · refine obeys_send ?_ ?_ fun _ => trivial
    · rw [hcalm]
      exact ⟨rfl, Draft.noConfusion⟩
    · rw [hcalm]
      exact fun _ => rfl
  rintro _ t rfl
  refine obeys_andThen (R := fun _ t => t = { s with draft := .row (written version dirty) }) ?_ ?_
  · by_cases hrow : Plant.hasRow version dirty = true
    · rw [if_pos hrow]
      refine obeys_send ?_ ?_ fun _ => trivial
      · rw [hcalm]
        exact ⟨rfl, Draft.noConfusion⟩
      · rw [hcalm, written, if_pos hrow]
        exact fun _ => rfl
    · rw [if_neg hrow, written, if_neg hrow]
      exact rfl
  rintro _ t rfl
  refine obeys_send ?_ ?_ fun _ => trivial
  · rw [hcalm]
    exact ⟨hs.locked, _, rfl, hw⟩
  · rw [hcalm]
    intro _
    simp [Standing.hearReply, Standing.publish, hs.closed]

/-- A version is written as a whole or not at all, and what is left open is owed a rollback. -/
theorem obeys_writeVersion {version : Int} {dirty : Bool} (hs : s.Held)
    (hw : Writes p kind desired s (written version dirty)) :
    (p.writeVersion version dirty).run.Obeys (etiquette p kind desired)
      (onSuccess
        (fun _ t => t = { s with known := some (written version dirty), hasWritten := true })
        Settled) s := by
  refine obeys_andThen (R := fun _ t => t = { s with draft := .blank }) ?_ ?_
  · refine obeys_send ?_ ?_ ?_
    · rw [hs.calm]
      exact hs.closed
    · rw [hs.calm]
      exact fun _ => rfl
    · rw [hs.calm]
      exact fun _ => hs.settled
  rintro _ t rfl
  refine obeys_andThen (obeys_attempt (obeys_replaceRow hs hw)).of_unbroken ?_
  rintro (e | _) t ht
  · exact obeys_andThen (R := fun _ u => u.Settled) (obeys_ask trivial fun _ _ _ => rfl)
      fun _ _ hu => hu
  · exact ht

/-! ## Steps -/

/-- The session is at a version between two steps, and knows it to be recorded. -/
structure Standing.At (p : Plant) (c : Nat) (reads : List (Option Row)) (s : Standing) : Prop
    extends s.Held where
  reads_eq : s.reads = reads
  known : p.source.Fits → ∃ k, s.known = some k ∧ level k = c

theorem obeys_readScript {d : Direction} {version : Nat} (hs : s.Held) :
    (p.readScript d version).run.Obeys (etiquette p kind desired)
      (onSuccess (fun _ t => t = { s with script := some (d, version) }) Settled) s := by
  refine obeys_andThen (R := fun _ t => s = t) (obeys_get (fun _ _ => rfl) fun _ _ => hs.settled) ?_
  rintro script _ rfl
  refine obeys_andThen (R := fun (a : Except IoError String) t =>
    t = s.hear (.readScript d version script.path) a) (obeys_ask trivial fun _ _ => rfl) ?_
  rintro a t rfl
  refine obeys_get ?_ ?_
  · rintro text rfl
    exact rfl
  · rintro e rfl
    exact hs.settled

theorem obeys_runScript {text : String} {d : Direction} {version : Nat} (hs : s.Held)
    (hscript : s.script = some (d, version)) (hruns : Runs kind desired s d) :
    (p.runScript text).run.Obeys (etiquette p kind desired)
      (onSuccess (fun _ t => t = s) Settled) s := by
  unfold Plant.runScript
  split
  · exact rfl
  · refine obeys_send ?_ ?_ ?_
    · rw [hs.calm]
      exact ⟨hs.locked, d, version, hscript, hruns⟩
    · rw [hs.calm]
      exact fun _ => rfl
    · rw [hs.calm]
      exact fun _ => hs.settled

/-- **A step leads from the version it starts from to the version it records**, dirty before its
script and clean after it. -/
theorem obeys_takeStep {step : Step} {first again : Option Row} {c : Nat}
    (hs : s.At p c [first, again]) (hmig : Migrates kind desired first)
    (hside : step.direction.Leads (level again) desired) (hlead : step.direction.Leads c step.level)
    (hfits : p.source.Fits → ∀ v, step.target = some v → v < 0x8000000000000000) :
    (p.takeStep step).run.Obeys (etiquette p kind desired)
      (onSuccess (fun _ t => t.At p step.level [first, again]) Settled) s := by
  obtain ⟨hheld, hreads, hknown⟩ := hs
  have hschema : p.source.Fits → ∀ dirty,
      schemaOf (written (Plant.recorded step.target) dirty) = ⟨step.level, dirty⟩ :=
    fun h dirty => schemaOf_written (hfits h)
  refine obeys_andThen (obeys_readScript hheld) ?_
  rintro text _ rfl
  have hheld₁ : Held { s with script := some (step.direction, step.version) } :=
    ⟨hheld.locked, hheld.closed, hheld.paid⟩
  have hdirty : Writes p kind desired { s with script := some (step.direction, step.version) }
      (written (Plant.recorded step.target) true) := by
    simp only [Writes, hreads]
    refine ⟨hmig, fun h => ?_⟩
    obtain ⟨k, hk, hlevel⟩ := hknown h
    refine ⟨k, hk, step.direction, hside, ?_⟩
    simpa [level, isDirty, hschema h, hlevel] using hlead
  -- The first mark leaves the old version behind; from then on the new one is known, and confirmed
  -- below.
  refine obeys_andThen (obeys_writeVersion hheld₁ hdirty) ?_
  rintro _ _ rfl
  refine obeys_andThen (obeys_runScript (d := step.direction) ?_ rfl ?_) ?_
  · exact ⟨hheld.locked, hheld.closed, hheld.paid⟩
  · simp only [Runs, hreads]
    exact ⟨hmig, hside⟩
  rintro _ _ rfl
  refine obeys_andThen (obeys_writeVersion ?_ ?_) ?_
  · exact ⟨hheld.locked, hheld.closed, hheld.paid⟩
  · simp only [Writes, hreads]
    refine ⟨hmig, fun h => ⟨_, rfl, step.direction, hside, ?_⟩⟩
    simp [level, isDirty, hschema h]
  rintro _ _ rfl
  refine obeys_log ⟨⟨hheld.locked, hheld.closed, hheld.paid⟩, hreads, fun h => ⟨_, rfl, ?_⟩⟩
  simp [level, hschema h]

theorem takeSteps_cons (t : Step) (rest : List Step) :
    p.takeSteps (t :: rest) = Work.ask .takeStop >>= fun stop =>
      if stop then
        Work.ask (.log "Stop requested, leaving schema at the last completed step") >>= fun _ =>
        throw .stopped
      else p.takeStep t >>= fun _ => p.takeSteps rest := rfl

theorem obeys_takeSteps {first again : Option Row} {steps : List Step} {d : Direction}
    (hmig : Migrates kind desired first) (hside : d.Leads (level again) desired)
    (hfits : p.source.Fits → ∀ t ∈ steps, ∀ v, t.target = some v → v < 0x8000000000000000) {c : Nat}
    (hmoves : Step.Moves d c steps) (hs : s.At p c [first, again]) :
    (p.takeSteps steps).run.Obeys (etiquette p kind desired)
      (onSuccess (fun _ t => t.Settled) Settled) s := by
  induction steps generalizing c s with
  | nil => exact hs.settled
  | cons t rest ih =>
    obtain ⟨rfl, hlead, hrest⟩ := hmoves
    rw [takeSteps_cons]
    refine obeys_andThen (R := fun _ u => s = u) (obeys_ask trivial fun _ _ => rfl) ?_
    rintro stop _ rfl
    split
    · exact obeys_andThen (obeys_log hs.settled) fun _ _ hu => hu
    · refine obeys_andThen
        (obeys_takeStep hs hmig hside hlead fun h => hfits h t List.mem_cons_self) ?_
      intro _ u hu
      exact ih (fun h t' ht' => hfits h t' (List.mem_cons_of_mem t ht')) hrest hu

/-! ## The engine's programs -/

theorem migrateLocked_eq (version : Nat) :
    p.migrateLocked version = p.readVersion >>= fun current =>
      if current.any (·.dirty) then throw (.dirty (toBigint (current.elim 0 (·.version))))
      else Work.get .source (p.source.plan (current.map (·.version)) version) >>= p.takeSteps := by
  unfold Plant.migrateLocked
  congr
  funext current
  cases current with
  | none => rfl
  | some c =>
    cases hdirty : c.dirty
    · simp [hdirty]
    · simp [hdirty]

theorem obeys_requireConnection {ok : Unit → Standing → Prop} {failed broken : Standing → Prop}
    (hok : ok () s) (hfailed : failed s) :
    Plant.requireConnection.run.Obeys (etiquette p kind desired) (ending ok failed broken) s := by
  refine obeys_andThen (R := fun _ t => s = t) (obeys_ask trivial fun _ _ => rfl) ?_
  rintro (_ | _) _ rfl
  · exact hfailed
  · exact hok

theorem level_eq (row : Option Row) : level row = ((Plant.ofRow row).map (·.version)).getD 0 := by
  unfold level schemaOf
  cases Plant.ofRow row <;> rfl

/-- **What is planned under the lock** starts from the row that is recorded then. -/
theorem obeys_migrateLocked {first : Option Row} (hs : s.Held) (hreads : s.reads = [first])
    (hmig : Migrates kind desired first) :
    (p.migrateLocked desired).run.Obeys (etiquette p kind desired)
      (onSuccess (fun _ t => t.Settled) Settled) s := by
  rw [migrateLocked_eq]
  refine obeys_andThen (R := fun current t =>
    ∃ again, current = Plant.ofRow again ∧ t.At p (level again) [first, again]) ?_ ?_
  · refine obeys_andThen (R := fun again t => t.At p (level again) [first, again])
      (obeys_send ?_ ?_ ?_) ?_
    · rw [hs.calm]
      exact ⟨rfl, hs.closed⟩
    · rw [hs.calm]
      intro again
      refine ⟨⟨hs.locked, hs.closed, hs.paid⟩, ?_, fun _ => ⟨again, if_pos hs.locked, rfl⟩⟩
      simp [Standing.hearReply, hreads]
    · rw [hs.calm]
      exact fun _ => hs.settled
    · exact fun again t ht => ⟨again, rfl, ht⟩
  rintro current t ⟨again, rfl, hat⟩
  split
  · exact hat.settled
  refine obeys_andThen (R := fun steps u =>
    p.source.plan ((Plant.ofRow again).map (·.version)) desired = .ok steps ∧ t = u) ?_ ?_
  · exact obeys_get (fun steps hsteps => ⟨hsteps, rfl⟩) fun _ _ => hat.settled
  rintro steps _ ⟨hplan, rfl⟩
  rcases Source.plan_moves hplan with rfl | ⟨d, hside, hmoves⟩
  · exact hat.settled
  · rw [← level_eq] at hside hmoves
    exact obeys_takeSteps hmig hside (fun h => h.target hplan) hmoves hat

theorem obeys_migrateTo {first : Option Row} (hs : s.Settled) (hreads : s.reads = [first])
    (hmig : Migrates kind desired first) :
    (p.migrateTo desired).run.Obeys (etiquette p kind desired)
      (onSuccess (fun _ t => t.Settled) Settled) s := by
  refine obeys_andThen (R := fun _ t => s = t) (obeys_requireConnection rfl hs) ?_
  rintro _ _ rfl
  refine (obeys_locked (R := fun _ => True) hs ?_).imp_ok fun _ _ h => h.1
  intro t hheld hreads' _
  exact (obeys_migrateLocked hheld (hreads'.trans hreads) hmig).imp_ok fun _ _ h => ⟨h, trivial⟩

theorem obeys_force {v : Nat} (hs : s.Settled) (hnew : s.hasWritten = false) {first : Option Row}
    (hreads : s.reads = [first]) (hmends : Mends kind first (some ⟨v, false⟩)) :
    (p.force v).run.Obeys (etiquette p kind desired)
      (onSuccess (fun _ t => t.Settled ∧ t.reads = [first]) Settled) s := by
  have hvalid : ¬ ((v : Int) < Plant.nilVersion) := by
    unfold Plant.nilVersion
    omega
  unfold Plant.force
  rw [if_neg hvalid]
  refine obeys_andThen (R := fun _ t => s = t) (obeys_requireConnection rfl hs) ?_
  rintro _ _ rfl
  refine obeys_andThen (obeys_locked (R := (· = [first])) hs ?_) fun _ _ ht => obeys_log ht
  intro t hheld hreads' hnew'
  have hw : Writes p kind desired t (written v false) := by
    simp only [Writes, hreads', hreads]
    exact ⟨hnew'.trans hnew, by rwa [written_clean]⟩
  refine (obeys_writeVersion hheld hw).imp_ok ?_
  rintro _ _ rfl
  exact ⟨Standing.settled_of_closed hheld.closed, hreads'.trans hreads⟩

theorem obeys_ensureTable (hs : s.Settled) :
    p.ensureTable.run.Obeys (etiquette p kind desired)
      (onSuccess (fun _ t => t.Settled) Settled) s := by
  refine obeys_andThen (R := fun _ t => s = t) (obeys_requireConnection rfl hs) ?_
  rintro _ _ rfl
  refine (obeys_locked (R := fun _ => True) hs ?_).imp_ok fun _ _ h => h.1
  intro t hheld _ _
  refine obeys_send trivial ?_ ?_
  · rw [hheld.calm]
    exact fun _ => ⟨hheld.settled, trivial⟩
  · rw [hheld.calm]
    exact fun _ => hheld.settled

end Steps

/-! ## Jobs -/

section Jobs

variable {p : Plant} {kind : Transition} {desired : Nat} {s : Standing}

/-- Nothing has been read yet. -/
def Standing.Starting (s : Standing) : Prop := s.Settled ∧ s.reads = [] ∧ s.hasWritten = false

/-- One row has been read, and it says this of the schema. -/
def Standing.HasRead (c : SchemaVersion) (s : Standing) : Prop :=
  s.Settled ∧ ∃ first, s.reads = [first] ∧ schemaOf first = c

theorem obeys_version (hs : s.Starting) :
    p.engine.version.Obeys (etiquette p kind desired)
      (onSuccess (fun v t => t.HasRead (v.getD ⟨0, false⟩) ∧ t.hasWritten = false) Settled) s := by
  obtain ⟨hsettled, hreads, hnew⟩ := hs
  refine obeys_inEngineWords ?_
  refine obeys_andThen (R := fun _ t => s = t) (obeys_requireConnection rfl hsettled) ?_
  rintro _ _ rfl
  have hcalm : ∀ a, (s.calm.hear (.statement (.selectRow p.table)) a).Settled := by
    rintro (e | row) <;> exact Standing.settled_of_closed hsettled.calm_closed
  refine obeys_andThen
    (R := fun row t => t.HasRead (schemaOf row) ∧ t.hasWritten = false) (obeys_send ?_ ?_ ?_) ?_
  · exact ⟨rfl, hsettled.calm_closed⟩
  · intro row
    refine ⟨⟨hcalm (.ok row), row, ?_, rfl⟩, ?_⟩
    · simp [Standing.hearReply, hreads]
    · exact s.calm_hasWritten.trans hnew
  · exact fun e => hcalm (.error e)
  · exact fun _ _ ht => ht

/-- The phases of an operation, in terms of what its session knows. -/
theorem phases :
    Engine.Phases (etiquette p kind desired) p.engine kind desired Standing.Starting
      (fun c t => t.HasRead c ∧ t.hasWritten = false) Standing.HasRead Settled where
  read_ended c t ht := ht.1.1
  repaired_ended c t ht := ht.1
  log_read line c t ht := obeys_request trivial fun _ _ => ht
  log_repaired line c t ht := obeys_request trivial fun _ _ => ht
  log_ended line t ht := obeys_request trivial fun _ _ => ht
  version t ht := obeys_version ht
  force hkind c t := by
    rintro ⟨⟨hsettled, first, hreads, rfl⟩, hnew⟩ hdirty _
    refine obeys_inEngineWords ((obeys_force hsettled hnew hreads ⟨hkind, hdirty, rfl⟩).imp_ok ?_)
    rintro _ u ⟨hu, hreads'⟩
    exact ⟨hu, first, hreads', rfl⟩
  migrateUp hkind c t := by
    rintro ⟨⟨hsettled, first, hreads, rfl⟩, -⟩ hclean hlt
    subst hkind
    have hmig : Migrates .apply desired first := ⟨hclean, hlt⟩
    exact Program.obeys_onSuccess.1 (obeys_inEngineWords (obeys_migrateTo hsettled hreads hmig))
  migrateDown hkind c t ht hlt := by
    subst hkind
    have hread : t.HasRead c := by
      split at ht
      · exact ht
      · exact ht.1
    obtain ⟨hsettled, first, hreads, rfl⟩ := hread
    have hmig : Migrates .rollback desired first := hlt
    exact Program.obeys_onSuccess.1 (obeys_inEngineWords (obeys_migrateTo hsettled hreads hmig))
  setLockTimeout d t ht := obeys_request trivial fun _ _ => ht
  restore t ht := obeys_request trivial fun _ _ => ht

theorem obeys_closing (isBenign : String → Bool) (hs : s.Settled) :
    (p.engine.closing isBenign).Obeys (etiquette p kind desired) (fun _ t => t.Settled) s := by
  have hclose : p.engine.close.Obeys (etiquette p kind desired) (fun _ t => t.Settled) s :=
    (Program.obeys_bind (p := Program.request (I := interface) .disconnect)).2
      (obeys_request trivial fun _ _ => hs)
  refine (Program.obeys_bind (p := p.engine.close)).2 (hclose.mono ?_)
  rintro (result | _) t ht
  · simp only [Program.afterwards]
    split
    · exact ht
    · exact (Program.obeys_bind (p := p.engine.log "Closed migrator")).2
        (obeys_request trivial fun _ _ => ht)
  · exact ht

/-- **A session keeps to the protocol** in whatever its owner has it do next. -/
theorem Job.obeys (job : Job) (hs : s.Settled) :
    (job.program p).Obeys (etiquette p job.kind job.desired) (fun _ t => t.Settled) s.fresh := by
  have hfresh : s.fresh.Starting := ⟨hs, rfl, rfl⟩
  cases job with
  | operate kind desired remaining =>
    refine (Program.obeys_bind (p := p.engine.operation kind desired remaining)).2
      ((phases.operation remaining hfresh).mono ?_)
    rintro (_ | _) t ht <;> exact ht
  | ensureTable =>
    refine (Program.obeys_bind (p := p.ensureTable.run)).2 ((obeys_ensureTable hfresh.1).mono ?_)
    rintro ((e | a) | _) t ht <;> exact ht
  | close isBenign =>
    refine (Program.obeys_bind (p := p.engine.closing isBenign)).2
      ((obeys_closing isBenign hfresh.1).mono ?_)
    rintro (_ | _) t ht <;> exact ht

end Jobs

end Stairway.Postgres
