import Stairway.Proofs.Controller.CloseLast
import Stairway.Proofs.Memory.Stopping
import Stairway.Proofs.Postgres.RoundTrip

/-!
# Stopping the PostgreSQL engine

A migration looks for a stop before each step of its plan. The statement that records the step's
version as dirty begins it, and the schema is done with when the server has run the script; a step
whose script is blank does not say when it is over. So the engine keeps to the phases of a
migration, whatever the server answers (`engine_paced`).

`close_stops_once` puts both engines together with what a stop comes to on any engine. That it is
found only once can be seen in `stop_spent`.
-/

namespace Stairway.Postgres

open Program (onSuccess obeys_andThen obeys_onSuccess)

/-! ## Marks -/

/-- What a statement tells of a step, if it is served or if it is refused. -/
def Statement.mark (q : Statement) (served : Bool) : Option Mark :=
  match q with
  | .script .. => if served then some .completed else none
  | q => if q.beginsStep then some .begun else none

theorem Statement.mark_isLook (q : Statement) {served : Bool} {l : Mark}
    (h : q.mark served = some l) :
    l.isLook = false := by
  unfold mark at h
  split at h <;> split at h <;> cases h <;> rfl

instance : Marked interface where
  asks
    | .requestStop => true
    | _ => false
  mark
    | .takeStop, found => some (.looked found)
    | .statement q, a => q.mark a.isOk
    | _, _ => none

variable {p : Plant} {s t : List Mark} {k : Nat}

theorem unmarked_ask {r : Request} (hr : ∀ a, Marked.mark (I := interface) r a = none) :
    (Work.ask r).run.Unmarked :=
  .ask (f := fun a => .done (Except.ok a)) hr fun _ _ => rfl

theorem unmarked_get {ε α : Type} {wrap : ε → DatabaseError} {x : Except ε α} :
    (Work.get wrap x).run.Unmarked :=
  fun _ => rfl

theorem unmarked_attempt {α : Type} {w : Work α} (hw : w.run.Unmarked) : w.attempt.run.Unmarked :=
  hw.bind fun _ _ => rfl

theorem unmarked_log {line : String} : (Work.ask (.log line)).run.Unmarked :=
  unmarked_ask fun _ => rfl

theorem unmarked_payDebt : payDebt.run.Unmarked := by
  refine .seq (unmarked_ask fun _ => rfl) fun owed => ?_
  split
  · exact .seq (unmarked_ask fun _ => rfl) fun _ => unmarked_get
  · exact fun _ => rfl

/-- A statement is sent after the rollback that is owed, and leaves its mark where it is not
refused. -/
theorem marking_send (q : Statement) (t : List Mark) : (send q).run.Obeys (marking interface)
    (onSuccess (fun _ u => u = t ++ (q.mark true).toList)
      fun u => u = t ∨ u = t ++ (q.mark false).toList) t := by
  rw [send_eq]
  refine unmarked_payDebt.andThen (.inl rfl) fun _ => ?_
  refine obeys_andThen
    (R := fun (a : Except ConnectionError q.Reply) u => u = t ++ (q.mark a.isOk).toList)
    (marking_ask (f := fun a => .done (Except.ok a)) fun _ => rfl) ?_
  rintro (e | reply) _ rfl
  · exact .inr rfl
  · exact rfl

theorem unmarked_send {q : Statement} (hq : ∀ served, q.mark served = none) :
    (send q).run.Unmarked := by
  intro t
  refine obeys_onSuccess.1 ((marking_send q t).mono ?_)
  rintro ((e | reply) | _) u hu <;> simpa [hq] using hu

/-! ## Versions and scripts -/

theorem unmarked_readVersion : p.readVersion.run.Unmarked :=
  .seq (unmarked_send fun _ => rfl) fun _ _ => rfl

theorem unmarked_readScript {d : Direction} {version : Nat} :
    (p.readScript d version).run.Unmarked :=
  .seq unmarked_get fun _ => .seq (unmarked_ask fun _ => rfl) fun _ => unmarked_get

/-- Writing a version as clean leaves no mark. -/
theorem unmarked_writeVersion {version : Int} : (p.writeVersion version false).run.Unmarked := by
  have hreplace : (p.replaceRow version false).run.Unmarked := by
    rw [replaceRow_eq]
    refine .seq (unmarked_send fun _ => rfl) fun _ => .seq ?_ fun _ => unmarked_send fun _ => rfl
    split
    · exact unmarked_send fun _ => rfl
    · exact fun _ => rfl
  refine .seq (unmarked_send fun _ => rfl) fun _ => .seq (unmarked_attempt hreplace) ?_
  rintro (e | _)
  · exact .seq (unmarked_ask fun _ => rfl) fun _ _ => rfl
  · exact fun _ => rfl

/-- Writing a version as dirty begins a step. -/
theorem marking_writeVersion {version : Int} (ht : Led s .going k t) :
    (p.writeVersion version true).run.Obeys (marking interface)
      (onSuccess (fun _ u => Led s .running k u) fun u => ∃ φ, Led s φ k u) t := by
  have hbegun : Led s .running k (t ++ [.begun]) := ht.hear rfl nofun
  have hreplace : (p.replaceRow version true).run.Obeys (marking interface)
      (onSuccess (fun _ u => Led s .running k u) fun u => ∃ φ, Led s φ k u) t := by
    rw [replaceRow_eq, if_pos (show Plant.hasRow version true = true by simp [Plant.hasRow])]
    refine (unmarked_send fun _ => rfl).andThen ⟨_, ht⟩ fun _ => ?_
    refine obeys_andThen (R := fun _ u => Led s .running k u) ((marking_send _ t).mono ?_) ?_
    · rintro ((e | _) | _) u hu
      · rcases hu with rfl | rfl
        · exact ⟨_, ht⟩
        · exact ⟨_, hbegun⟩
      · exact hu ▸ hbegun
      · rcases hu with rfl | rfl
        · exact ⟨_, ht⟩
        · exact ⟨_, hbegun⟩
    · exact fun _ u hu => (unmarked_send fun _ => rfl).keeps (fun _ => hu) ⟨_, hu⟩
  refine (unmarked_send fun _ => rfl).andThen ⟨_, ht⟩ fun _ => ?_
  refine obeys_andThen (obeys_attempt hreplace) ?_
  rintro (e | _) u hu
  · exact (unmarked_ask fun _ => rfl).andThen hu fun _ => hu
  · exact hu

/-- Running a script is over when the server has run it, or at once if it is blank. -/
theorem marking_runScript {text : String} (ht : Led s .running k t) :
    (p.runScript text).run.Obeys (marking interface)
      (onSuccess (fun _ u => Led s .ready k u ∨ Led s .running k u) fun u => ∃ φ,
        Led s φ k u) t := by
  unfold Plant.runScript
  split
  · exact .inr ht
  · refine (marking_send (.script p.target.multiStatement text) t).mono ?_
    rintro ((e | _) | _) u hu
    · obtain rfl : u = t := hu.elim id fun h => h.trans (List.append_nil t)
      exact ⟨_, ht⟩
    · obtain rfl := hu
      exact .inl (ht.hear rfl nofun)
    · obtain rfl : u = t := hu.elim id fun h => h.trans (List.append_nil t)
      exact ⟨_, ht⟩

/-! ## Steps -/

/-- A step is begun, and completed if the server runs a script for it. -/
theorem marking_takeStep {step : Step} (ht : Led s .going k t) :
    (p.takeStep step).run.Obeys (marking interface)
      (onSuccess (fun _ u => Led s .ready k u ∨ Led s .running k u) fun u => ∃ φ,
        Led s φ k u) t := by
  refine unmarked_readScript.andThen ⟨_, ht⟩ fun text => ?_
  refine obeys_andThen (marking_writeVersion ht) fun _ u hu => ?_
  refine obeys_andThen (marking_runScript hu) fun _ v hv => ?_
  have hended : ∃ φ, Led s φ k v := hv.elim (fun h => ⟨_, h⟩) fun h => ⟨_, h⟩
  exact unmarked_writeVersion.andThen hended fun _ => unmarked_log.keeps (fun _ => hv) hended

/-- **Steps are taken as long as no stop is found.** -/
theorem marking_takeSteps (steps : List Step) : ∀ {t : List Mark}, Led s .ready k t ∨
    Led s .running k t →
    (p.takeSteps steps).run.Obeys (marking interface) (fun _ u => ∃ φ, Led s φ k u) t := by
  induction steps with
  | nil =>
    intro t ht
    exact ht.elim (fun h => ⟨_, h⟩) fun h => ⟨_, h⟩
  | cons step rest ih =>
    intro t ht
    rw [takeSteps_cons]
    -- a step with a blank script is still `running` when the next look comes
    refine obeys_onSuccess.1 (obeys_andThen
      (R := fun found u => Led s (if found = true then .halted else .going) k u) ?_ ?_)
    · refine marking_ask (f := fun a => .done (Except.ok a)) fun found => ?_
      exact ht.elim (·.hear rfl nofun) (·.hear rfl nofun)
    · intro found u hu
      split
      · exact unmarked_log.andThen ⟨_, hu⟩ fun _ => ⟨_, hu⟩
      · next hgoing =>
        rw [if_neg hgoing] at hu
        exact obeys_andThen (marking_takeStep hu) fun _ v hv => obeys_onSuccess.2 (ih hv)

theorem marking_migrateLocked {target : Nat} (ht : Led s .ready k t) :
    (p.migrateLocked target).run.Obeys (marking interface)
      (onSuccess (fun _ u => ∃ φ, Led s φ k u) fun u => ∃ φ, Led s φ k u) t := by
  rw [migrateLocked_eq]
  refine unmarked_readVersion.andThen ⟨_, ht⟩ fun current => ?_
  split
  · exact ⟨_, ht⟩
  · exact unmarked_get.andThen ⟨_, ht⟩ fun steps =>
      obeys_onSuccess.2 (marking_takeSteps steps (.inl ht))

/-! ## The engine's programs -/

/-- To ask for the lock leaves no mark. -/
theorem marking_entrance (key : Int) {W F : List Mark → Prop} (h : ∀ t, W t → F t) :
    Entrance (marking interface) key W W F where
  tryLock {t} ht := (unmarked_send fun _ => rfl).keeps (fun gotIt => by split <;> exact ht) (h t ht)
  now {t} ht := (unmarked_ask fun _ => rfl).keeps (fun _ => ht) (h t ht)
  lockTimeout {t} ht := (unmarked_ask fun _ => rfl).keeps (fun _ => ht) (h t ht)
  giveUp {t} := h t

theorem unmarked_release (key : Int) : (release key).run.Unmarked := by
  refine .seq (unmarked_send fun _ => rfl) fun hadIt => ?_
  cases hadIt with
  | true => exact fun _ => rfl
  | false => exact .seq unmarked_log fun _ _ => rfl

theorem marking_locked {α : Type} {key : Int} {body : Work α} {W F : List Mark → Prop}
    (h : ∀ t, W t → F t) (hbody : ∀ t, W t → body.run.Obeys (marking interface) (fun _ u => F u) t)
    (ht : W t) :
    (locked key body).run.Obeys (marking interface) (fun _ u => F u) t := by
  refine obeys_onSuccess.1 ((marking_entrance key h).locked (L := F) (R := fun _ => F) ht
    (fun hu => obeys_onSuccess.2 (hbody _ hu)) ?_ ?_)
  · exact fun hu => (unmarked_release key).keeps (fun _ => hu) hu
  · exact fun hu => (unmarked_release key).keeps (fun _ => hu) hu

theorem unmarked_locked {α : Type} {key : Int} {body : Work α} (hbody : body.run.Unmarked) :
    (locked key body).run.Unmarked :=
  fun t => marking_locked (W := fun u => u = t) (fun _ => id) (fun _ hu => hu ▸ hbody t) rfl

theorem unmarked_requireConnection : Plant.requireConnection.run.Unmarked := by
  refine .seq (unmarked_ask fun _ => rfl) fun connected => ?_
  cases connected <;> exact fun _ => rfl

theorem unmarked_inEngineWords {α : Type} {w : Work α} (hw : w.run.Unmarked) :
    (Plant.inEngineWords w).Unmarked :=
  hw.bind fun _ _ => rfl

/-- **The PostgreSQL engine looks for a stop before each step**, whatever the server answers. -/
theorem engine_paced (p : Plant) : p.engine.Paced where
  version := unmarked_inEngineWords (.seq unmarked_requireConnection fun _ => unmarked_readVersion)
  force v := by
    refine unmarked_inEngineWords ?_
    unfold Plant.force
    split
    · exact fun _ => rfl
    · refine .seq unmarked_requireConnection fun _ => ?_
      exact .seq (unmarked_locked unmarked_writeVersion) fun _ => unmarked_log
  migrateTo v s k t ht := by
    refine obeys_onSuccess.1
      (obeys_inEngineWords (unmarked_requireConnection.andThen ⟨_, ht⟩ fun _ => ?_))
    exact obeys_onSuccess.2 (marking_locked (fun u hu => ⟨_, hu⟩)
      (fun u hu => obeys_onSuccess.1 (marking_migrateLocked hu)) ht)
  close := .ask (fun _ => rfl) fun _ _ => rfl
  log _ _ := marking_silent (fun _ => rfl) fun _ => rfl
  requestStop _ := marking_silent (fun _ => rfl) fun _ => rfl
  setLockTimeout _ _ := marking_silent (fun _ => rfl) fun _ => ⟨rfl, rfl⟩
  defaultLockTimeout _ := rfl

theorem site_hasSlot : HasSlot interface fun s : Site => s.session.stop where
  arrive r _ s := by cases r <;> rfl
  asked r _ _ h := by
    cases r with
    | requestStop => exact ⟨rfl, rfl⟩
    | _ => cases h
  looked r _ _ found h := by
    cases r with
    | takeStop =>
      cases h
      rfl
    | statement q => cases q.mark_isLook h
    | _ => cases h
  other r _ s hasks hlook := by
    cases r with
    | requestStop => cases hasks
    | takeStop => cases hlook _ rfl
    | connect o =>
      simp only [Machine.answer, Site.serve, Session.serve, Session.connect]
      split <;> rfl
    | _ => rfl

/-! ## Closing -/

open Schedule

/-- **A close stops a migration once**, on both engines: after any list of operations, under any
contexts, and whatever the server answers. -/
theorem close_stops_once (isBenign : String → Bool) (now : Instant) (errands : List Errand)
    (pause : Option Duration) (expiry : Option Instant) :
    (∀ store : Memory.Store, store.stop.listening = true →
      StopsOnce errands.length
        (({ engine := store, now := now } : Schedule Memory.interface Memory.Store).followClose
          Memory.engine isBenign errands pause expiry)
        (beforeClose Memory.engine store now errands pause)
        ((beforeClose Memory.engine store now errands pause).close Memory.engine.noted
          isBenign expiry)) ∧
    ∀ (p : Plant) (site : Site), site.session.stop.listening = true →
      StopsOnce errands.length
        (({ engine := site, now := now } : Schedule interface Site).followClose p.engine isBenign
          errands pause expiry)
        (beforeClose p.engine site now errands pause)
        ((beforeClose p.engine site now errands pause).close p.engine.noted isBenign expiry) := by
  have hsame : ∀ marks : List Mark, some (marks ++ []).length = some marks.length := by simp
  refine ⟨fun store hstore => ?_, fun p site hsite => ?_⟩
  · refine stops_once Memory.store_hasSlot Memory.engine_paced (fun now m => ?_) isBenign hstore
      now errands pause expiry
    rw [Program.run_eq_finish]
    exact hsame m.marks
  · refine stops_once site_hasSlot (engine_paced p) (fun now m => ?_) isBenign hsite now errands
      pause expiry
    rw [Program.run_eq_finish]
    exact hsame m.marks

/-- Two operations whose callers leave while the first is under way. -/
def bothLeft : List Errand :=
  [{ kind := .apply, desired := 3, expiry := some 5 },
    { kind := .apply, desired := 5, expiry := some 6 }]

theorem close_stops_once_bothLeft : slowStore.stop.listening = true ∧
    opened.session.stop.listening = true ∧ StopsOnce 2
      (({ engine := slowStore, now := 0 } : Schedule Memory.interface Memory.Store).followClose
        Memory.engine (fun _ => false) bothLeft none none)
      (beforeClose Memory.engine slowStore 0 bothLeft none)
      ((beforeClose Memory.engine slowStore 0 bothLeft none).close Memory.engine.noted
        (fun _ => false) none) ∧
    StopsOnce 2
      (({ engine := opened, now := 0 } : Schedule interface Site).followClose oneAndTwo.engine
        (fun _ => false) bothLeft none none)
      (beforeClose oneAndTwo.engine opened 0 bothLeft none)
      ((beforeClose oneAndTwo.engine opened 0 bothLeft none).close oneAndTwo.engine.noted
        (fun _ => false) none) :=
  have hstops := close_stops_once (fun _ => false) 0 bothLeft none none
  ⟨rfl, rfl, hstops.1 slowStore rfl, hstops.2 oneAndTwo opened rfl⟩

/-- **The stop is spent on the first of two operations**: after it was asked for the second one goes
on to its target. -/
theorem stop_spent :
    ¬ ∀ (store : Memory.Store) (now : Instant) (errands : List Errand) (t : Instant) (k : Nat),
    store.stop.listening = true →
    (((beforeClose Memory.engine store now errands none).close Memory.engine.noted (fun _ => false)
      none).2.elapseTo t).engine.asked = some k →
    (((((beforeClose Memory.engine store now errands none).close Memory.engine.noted
      (fun _ => false) none).2.elapseTo t).engine.marks.drop k).filter (·.isOfStep)).Sublist
        [.begun, .completed] := by
  intro h
  have hmarks : ((((beforeClose Memory.engine slowStore 0 bothLeft none).close Memory.engine.noted
      (fun _ => false) none).2.elapseTo 0).engine.marks.drop 4).filter (·.isOfStep) =
      [.completed, .begun, .completed, .begun, .completed, .begun, .completed, .begun,
        .completed] := by cbv
  have hfew := (h slowStore 0 bothLeft 0 4 rfl (by cbv)).length_le
  rw [hmarks] at hfew
  exact absurd hfew (by decide)

end Stairway.Postgres
