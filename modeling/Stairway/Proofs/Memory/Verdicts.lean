import Stairway.Proofs.Controller.Background
import Stairway.Proofs.Memory.Serial

/-!
# What becomes of a store

An operation on an engine in memory succeeds where the store `Grants` it, and nowhere else, and the
store that it leaves is settled by where it began: `operation_verdict`, for every store that nobody
disturbs and any context that outlives the body.

`Comes` is what this says of an evaluation, one lemma for each kind of operation: the store that is
reached where the operation is granted, and the one that is left where it is not, which is the old
one but for a dirty flag that a rollback has taken off (`Store.mended`). The loop of single steps is
an induction on the distance (`evaluate_stepsUpTo`): a step is one of those that are counted at its
start (`Store.walked_after`).

A version counts as dirty when the engine says so, and it says nothing of the flag of a store
without a version (`Store.current`).
-/

namespace Stairway.Memory

theorem finish_eq_evaluate {α : Type} (p : Program interface α) : ∀ (now : Instant) (s : Store),
    (p.finish now s).outcome = (evaluate p s).1 ∧ (p.finish now s).machine = (evaluate p s).2 := by
  induction p with
  | done a => exact fun now s => ⟨rfl, rfl⟩
  | crash => exact fun now s => ⟨rfl, rfl⟩
  | pause d next ih => exact fun now s => ih _ _
  | race d next ih => exact fun now s => ih _ _ _
  | ask r next ih => exact fun now s => ih _ _ _

/-! ## Stores that nobody disturbs -/

/-- Nobody has planned a fault or asked for a stop. -/
structure Store.Untroubled (s : Store) : Prop where
  unfailing : ∀ point, s.faults.at point = none
  unstopped : s.stop.pending = false

/-- The version that is read of a store; none counts as clean at 0. -/
def Store.current (s : Store) : SchemaVersion :=
  (s.version.map fun v => ⟨v, s.dirty⟩).getD ⟨0, false⟩

/-- Whether the store can migrate to a version. -/
def Store.Offers (s : Store) (target : Nat) : Prop := target ≤ s.available ∧ s.migrateError = none

/-- The store without what it has noted: calls, lines of the log and lock timeouts. -/
def Store.bare (s : Store) : Store :=
  { s with calls := [], log := [], lockTimeout := 0, lockTimeouts := [] }

/-- The store at another version, to which it has gone one step at a time. -/
def Store.walked (s : Store) (target : Nat) : Store :=
  if s.current.version = target then s
  else { s with
    version := if target = 0 then none else some target
    dirty := false
    steps := s.steps + (target - s.current.version) + (s.current.version - target) }

theorem Store.current_version (s : Store) : s.current.version = s.version.getD 0 := by
  unfold current
  cases s.version <;> rfl

variable {s : Store}

theorem evaluate_guarded {α : Type} {point : Point} {p : Program interface (Except EngineError α)}
    (h : s.Untroubled) : evaluate (guarded point p) s = evaluate p s := by
  simp [guarded, ask, Program.request, Program.bind, evaluate, Store.serve, h.unfailing]

/-- The store that a step to `next` leaves. -/
def Store.after (s : Store) (next : Nat) : Store :=
  { s with dirty := false, steps := s.steps + 1, version := if next = 0 then none else some next }

theorem Store.current_after (s : Store) (next : Nat) : (s.after next).current.version = next := by
  rw [Store.current_version, Store.after]
  split
  · next h => exact h.symm
  · rfl

/-- A step is one of those that the store has to go. -/
theorem Store.walked_after {next target : Nat} (h : s.current.version ≠ target)
    (hnearer : (target - next) + (next - target) + 1 =
      (target - s.current.version) + (s.current.version - target)) :
    (s.after next).walked target = s.walked target := by
  rw [Store.walked, Store.current_after, Store.walked, if_neg h]
  split
  · next harrived =>
    have hsteps : s.steps + (target - s.current.version) +
        (s.current.version - target) = s.steps + 1 := by
      omega
    rw [hsteps, harrived]
    rfl
  · have hsteps : s.steps + 1 + (target - next) + (next - target) =
        s.steps + (target - s.current.version) + (s.current.version - target) := by omega
    simp only [Store.after, hsteps]

theorem toward_nearer {target current : Nat} (h : current ≠ target) :
    (target - toward target current) + (toward target current - target) + 1 =
      (target - current) + (current - target) := by
  unfold toward
  split <;> omega

theorem evaluate_step (delay : Duration) (next : Nat) :
    evaluate (step delay next) s = (.finished (), s.after next) := by
  unfold step
  split <;> rfl

theorem serve_takeStop (h : s.Untroubled) : s.serve .takeStop = (false, s) := by
  have hpending := h.unstopped
  obtain ⟨⟩ := s
  rename_i stop _ _
  obtain ⟨⟩ := stop
  simp only at hpending
  simp [Store.serve, StopSlot.take, hpending]

theorem evaluate_stepsUpTo (delay : Duration) (target current : Nat) : ∀ s : Store, s.Untroubled →
    s.current.version = current →
    evaluate (stepsUpTo delay target current) s = (.finished (.ok ()), s.walked target) := by
  induction current using stepsUpTo.induct target with
  | case1 =>
    intro s _ hs
    rw [stepsUpTo, dif_pos rfl, Store.walked, if_pos hs]
    rfl
  | case2 current h ih =>
    intro s hs hcurrent
    subst hcurrent
    have hnext := ih (s.after (toward target s.current.version)) ⟨hs.unfailing, hs.unstopped⟩
      (s.current_after _)
    rw [Store.walked_after h (toward_nearer h)] at hnext
    have hstep : evaluate (stepsUpTo delay target s.current.version) s =
        evaluate ((step delay (toward target s.current.version)).bind fun _ =>
          stepsUpTo delay target (toward target s.current.version)) s := by
      rw [stepsUpTo_eq h]
      simp only [Program.bind_def, ask, Program.request, Program.bind, evaluate, serve_takeStop hs]
      rfl
    rw [hstep, evaluate_bind, evaluate_step]
    exact hnext

/-! ## The engine's calls -/

theorem evaluate_info (line : String) (s : Store) :
    evaluate (engine.info line).run s = (.finished (.ok ()), (s.serve (.log line)).2) := rfl

theorem evaluate_ofEngine {α : Type} {p : Program interface (Except EngineError α)} {t : Store}
    {r : Except EngineError α} (h : evaluate p s = (.finished r, t)) :
    evaluate (Attempt.ofEngine p).run s = (.finished (r.mapError .engine), t) := by
  refine (evaluate_bind p _ s).trans ?_
  rw [h]
  rfl

theorem evaluate_current (h : s.Untroubled) (hopen : s.closed = false) :
    evaluate engine.current.run s = (.finished (.ok s.current), s.record .version) := by
  have hread : evaluate engine.version s =
      (.finished (.ok (s.version.map fun v => ⟨v, s.dirty⟩)), s.record .version) := by
    refine (evaluate_guarded h).trans ?_
    simp [ask, Program.request, evaluate, Store.serve, Store.record, hopen]
  exact evaluate_andThen (evaluate_ofEngine hread)

theorem evaluate_current_closed (h : s.Untroubled) (hclosed : s.closed = true) :
    evaluate engine.current.run s =
      (.finished (.error (.engine alreadyClosed)), s.record .version) := by
  have hread : evaluate engine.version s =
      (.finished (.error alreadyClosed), s.record .version) := by
    refine (evaluate_guarded h).trans ?_
    simp [ask, Program.request, evaluate, Store.serve, Store.record, hclosed]
  exact evaluate_andThen_error (evaluate_ofEngine hread)

theorem evaluate_force (h : s.Untroubled) (v : Int) :
    evaluate (Attempt.ofEngine (engine.force v)).run s =
      (.finished (.ok ()), (s.serve (.force v)).2) :=
  evaluate_ofEngine (r := .ok ()) (evaluate_guarded h)

theorem evaluate_migrateTo (h : s.Untroubled) {target : Nat} (hoffers : s.Offers target) :
    evaluate (Attempt.ofEngine (engine.migrateTo target)).run s =
      (.finished (.ok ()), (s.record (.migrateTo target)).walked target) := by
  refine evaluate_ofEngine (r := .ok ()) ((evaluate_guarded h).trans ?_)
  have hserved : s.serve (.startMigration target) =
      (.ok (s.stepDelay, s.version.getD 0), s.record (.migrateTo target)) := by
    simp [Store.serve, Store.record, hoffers.2, Nat.not_lt.2 hoffers.1]
  have hstart : evaluate (migrateTo target) s =
      evaluate (stepsUpTo s.stepDelay target (s.version.getD 0))
        (s.record (.migrateTo target)) := by
    simp only [migrateTo, ask, Program.request, Program.bind_def, Program.bind, evaluate, hserved]
  rw [hstart]
  exact evaluate_stepsUpTo _ target _ _ ⟨h.unfailing, h.unstopped⟩ (Store.current_version _)

theorem evaluate_migrateTo_refused (h : s.Untroubled) {target : Nat} (hoffers : ¬ s.Offers target) :
    ∃ e, evaluate (Attempt.ofEngine (engine.migrateTo target)).run s =
      (.finished (.error (.engine e)), s.record (.migrateTo target)) := by
  have hserved : ∃ e,
      s.serve (.startMigration target) = (.error e, s.record (.migrateTo target)) := by
    cases herror : s.migrateError with
    | some text => exact ⟨.database text, by simp only [Store.serve, Store.record, herror]⟩
    | none =>
      have hlt : s.available < target := Nat.lt_of_not_le fun hle => hoffers ⟨hle, herror⟩
      exact ⟨.missingMigration
        target, by simp only [Store.serve, Store.record, herror, hlt, if_true]⟩
  obtain ⟨e, hserved⟩ := hserved
  refine ⟨e, evaluate_ofEngine (r := .error e) ((evaluate_guarded h).trans ?_)⟩
  simp only [migrateTo, ask, Program.request, Program.bind_def, Program.bind, evaluate, hserved]
  rfl

/-! ## The operations -/

theorem Store.bare_walked (s : Store) (target : Nat) :
    (s.walked target).bare = s.bare.walked target := by
  have hcurrent : s.bare.current = s.current := rfl
  unfold Store.walked
  rw [hcurrent]
  split <;> rfl

/-- An operation succeeds if it is granted, and leaves `reached`; it fails if not, and leaves
`left`. What the stores have noted does not count. -/
structure Comes (granted : Prop) (reached left : Store)
    (found : Outcome (Except Failure Unit) × Store) : Prop where
  succeeds : granted → ∃ t, found = (.finished (.ok ()), t) ∧ t.bare = reached.bare
  fails : ¬ granted → ∃ e t, found = (.finished (.error e), t) ∧ t.bare = left.bare

section

variable {granted : Prop} {reached left : Store} {found : Outcome (Except Failure Unit) × Store}

theorem Comes.ofRefused {e : Failure} {t : Store} (hnot : ¬ granted)
    (h : found = (.finished (.error e), t)) (ht : t.bare = left.bare) :
    Comes granted reached left found :=
  ⟨fun hgranted => absurd hgranted hnot, fun _ => ⟨e, t, h, ht⟩⟩

theorem Comes.ofGranted {t : Store} (hgranted : granted) (h : found = (.finished (.ok ()), t))
    (ht : t.bare = reached.bare) : Comes granted reached left found :=
  ⟨fun _ => ⟨t, h, ht⟩, fun hnot => absurd hgranted hnot⟩

end

/-- What does not read the notes is the same where they differ. -/
theorem Store.same_of_bare {t : Store} {α : Type} (read : Store → α)
    (hread : ∀ u, read u.bare = read u) (h : t.bare = s.bare) : read t = read s := by
  rw [← hread t, h, hread]

theorem Store.Untroubled.of_bare {t : Store} (h : s.Untroubled) (ht : t.bare = s.bare) :
    t.Untroubled where
  unfailing := by
    rw [Store.same_of_bare (fun u => u.faults) (fun _ => rfl) ht]
    exact h.unfailing
  unstopped := by
    rw [Store.same_of_bare (fun u => u.stop) (fun _ => rfl) ht]
    exact h.unstopped

/-- A migration that is announced, made and confirmed, from a store that is as `s` but for its
notes. -/
theorem comes_migrate {t : Store} (h : s.Untroubled) (ht : t.bare = s.bare) (target : Nat)
    (announced confirmed : String) :
    Comes (s.Offers target) (s.walked target) s (evaluate (do
      engine.info announced
      Attempt.ofEngine (engine.migrateTo target)
      engine.info confirmed : Attempt interface Unit).run t) := by
  have hsame : t.Offers target = s.Offers target :=
    Store.same_of_bare (fun u => u.Offers target) (fun _ => rfl) ht
  have hlogged : (t.serve (.log announced)).2.Untroubled := h.of_bare ht
  by_cases hoffers : t.Offers target
  · have hmoved := evaluate_migrateTo hlogged hoffers
    refine .ofGranted (hsame ▸ hoffers) ((evaluate_andThen (evaluate_info announced t)).trans
      ((evaluate_andThen hmoved).trans (evaluate_info confirmed _))) ?_
    rw [Store.bare_walked s, ← ht]
    exact Store.bare_walked _ target
  · obtain ⟨e, hrefused⟩ := evaluate_migrateTo_refused hlogged hoffers
    exact .ofRefused (hsame ▸ hoffers)
      ((evaluate_andThen (evaluate_info announced t)).trans (evaluate_andThen_error hrefused)) ht

/-- When an operation succeeds. -/
def Store.Grants (s : Store) (desired : Nat) : Transition → Prop
  | .assert => s.closed = false ∧ s.current.dirty = false ∧ s.current.version = desired
  | .apply => s.closed = false ∧ s.current.dirty = false ∧
      (s.current.version = desired ∨ s.current.version < desired ∧ s.Offers desired)
  | .rollback => s.closed = false ∧
      (s.current.dirty = true → s.current.version ≤ Engine.largestForced) ∧
      (s.current.version = desired ∨ desired < s.current.version ∧ s.Offers desired)

/-- The store with a dirty flag, if it has one, taken off. -/
def Store.mended (s : Store) : Store := if s.current.dirty then { s with dirty := false } else s

theorem comes_assertVersion (h : s.Untroubled) (desired : Nat) :
    Comes (s.Grants desired .assert) s s (evaluate (engine.assertVersion desired).run s) := by
  rw [Engine.assertVersion_eq]
  cases hclosed : s.closed with
  | true =>
    exact .ofRefused (fun hgrants => by simp [hgrants.1] at hclosed)
      (evaluate_andThen_error (evaluate_current_closed h hclosed)) rfl
  | false =>
    rw [evaluate_andThen (evaluate_current h hclosed)]
    by_cases hdirty : s.current.dirty = true
    · rw [if_pos hdirty]
      exact .ofRefused (fun hgrants => by simp [hgrants.2.1] at hdirty) rfl rfl
    rw [if_neg hdirty]
    rcases Nat.lt_trichotomy s.current.version desired with hlt | heq | hgt
    · rw [if_neg (Nat.lt_asymm hlt), if_pos hlt]
      exact .ofRefused (fun hgrants => absurd hgrants.2.2 (Nat.ne_of_lt hlt)) rfl rfl
    · rw [if_neg (Nat.not_lt.2 (Nat.le_of_eq heq)), if_neg (Nat.not_lt.2 (Nat.le_of_eq heq.symm))]
      exact .ofGranted ⟨hclosed, by simpa using hdirty, heq⟩ (evaluate_info _ _) rfl
    · rw [if_pos hgt]
      exact .ofRefused (fun hgrants => absurd hgrants.2.2 (Nat.ne_of_gt hgt)) rfl rfl

theorem comes_applyVersion (h : s.Untroubled) (desired : Nat) :
    Comes (s.Grants desired .apply) (s.walked desired) s
      (evaluate (engine.applyVersion desired).run s) := by
  rw [Engine.applyVersion_eq]
  cases hclosed : s.closed with
  | true =>
    exact .ofRefused (fun hgrants => by simp [hgrants.1] at hclosed)
      (evaluate_andThen_error (evaluate_current_closed h hclosed)) rfl
  | false =>
    rw [evaluate_andThen (evaluate_current h hclosed)]
    by_cases hdirty : s.current.dirty = true
    · rw [if_pos hdirty]
      exact .ofRefused (fun hgrants => by simp [hgrants.2.1] at hdirty) rfl rfl
    rw [if_neg hdirty]
    rcases Nat.lt_trichotomy s.current.version desired with hlt | heq | hgt
    · rw [if_neg (Nat.ne_of_lt hlt), if_neg (Nat.lt_asymm hlt)]
      have hmigrated := comes_migrate (t := s.record .version) h rfl desired
        (toString (desired - s.current.version) ++ " migrations to be applied")
        "Applied all migrations successfully"
      have hgrants : s.Grants desired .apply ↔ s.Offers desired := by
        simp [Store.Grants, hclosed, hdirty, hlt, Nat.ne_of_lt hlt]
      exact ⟨fun hgranted => hmigrated.succeeds (hgrants.1 hgranted),
        fun hnot => hmigrated.fails fun hoffers => hnot (hgrants.2 hoffers)⟩
    · rw [if_pos heq]
      refine .ofGranted ⟨hclosed, by simpa using hdirty, .inl heq⟩ (evaluate_info _ _) ?_
      rw [Store.walked, if_pos heq]
      rfl
    · rw [if_neg (Nat.ne_of_gt hgt), if_pos hgt]
      refine .ofRefused (fun hgrants => ?_) rfl rfl
      rcases hgrants.2.2 with heq | ⟨hlt, -⟩ <;> omega

theorem Store.version_of_dirty (h : s.current.dirty = true) :
    s.version = some s.current.version := by
  unfold Store.current at h ⊢
  cases hversion : s.version with
  | none => simp [hversion] at h
  | some v => rfl

theorem Store.mended_version (s : Store) : s.mended.version = s.version := by
  unfold Store.mended
  split <;> rfl

theorem Store.mended_current (s : Store) : s.mended.current = ⟨s.current.version, false⟩ := by
  have hsame : s.mended.current.version = s.current.version := by
    rw [Store.current_version, Store.mended_version, Store.current_version]
  have hclean : s.mended.current.dirty = false := by
    unfold Store.mended
    by_cases hdirty : s.current.dirty = true
    · rw [if_pos hdirty]
      unfold Store.current
      cases s.version <;> rfl
    · rw [if_neg hdirty]
      simpa using hdirty
  rw [← hsame, ← hclean]

theorem Store.mended_offers (s : Store) (target : Nat) :
    s.mended.Offers target ↔ s.Offers target := by
  unfold Store.mended
  split <;> rfl

/-- What a repair says first. -/
def ignored (version : Nat) : String :=
  "Current schema version " ++ toString version ++ " is dirty, ignoring"

/-- The repair of a dirty version, which succeeds where the version can be forced. -/
theorem evaluate_repair (h : s.Untroubled) (hdirty : s.current.dirty = true)
    (hfits : s.current.version ≤ Engine.largestForced) :
    ∃ t,
      evaluate (engine.repair s.current.version).run (s.record .version) = (.finished (.ok ()), t) ∧
      t.bare = s.mended.bare := by
  let logged := ((s.record .version).serve (.log (ignored s.current.version))).2
  have hlogged : logged.Untroubled := ⟨h.unfailing, h.unstopped⟩
  refine ⟨(logged.serve (.force s.current.version)).2, ?_, ?_⟩
  · rw [Engine.repair_eq]
    refine (evaluate_andThen (evaluate_info _ _)).trans ?_
    rw [if_neg (Nat.not_lt.2 hfits)]
    exact evaluate_force hlogged _
  · rw [Store.mended, if_pos hdirty]
    simp [logged, Store.serve, Store.record, Store.bare, Store.version_of_dirty hdirty]

theorem evaluate_repair_refused (hlarge : Engine.largestForced < s.current.version) :
    evaluate (engine.repair s.current.version).run (s.record .version) =
      (.finished (.error (.cannotForce s.current.version)),
        ((s.record .version).serve (.log (ignored s.current.version))).2) := by
  rw [Engine.repair_eq]
  refine (evaluate_andThen (evaluate_info _ _)).trans ?_
  rw [if_pos hlarge]
  rfl

/-- The second half of a rollback, from a store that is as `s` but for its notes. -/
theorem comes_lower {t : Store} (h : s.Untroubled) (ht : t.bare = s.bare) (desired : Nat) :
    Comes (s.current.version = desired ∨ desired < s.current.version ∧ s.Offers desired)
      (s.walked desired) s
      (evaluate (engine.lower desired s.current.version).run t) := by
  unfold Engine.lower
  rcases Nat.lt_trichotomy s.current.version desired with hlt | heq | hgt
  · rw [if_neg (Nat.ne_of_lt hlt), if_pos hlt]
    exact .ofRefused (by omega) rfl ht
  · rw [if_pos heq]
    refine .ofGranted (.inl heq) (evaluate_info _ _) ?_
    rw [Store.walked, if_pos heq]
    exact ht
  · rw [if_neg (Nat.ne_of_gt hgt), if_neg (Nat.lt_asymm hgt)]
    have hmigrated := comes_migrate h ht desired
      (toString (s.current.version - desired) ++ " migrations to be rolled back")
      "Rolled back all migrations successfully"
    have hgrants : (s.current.version = desired ∨ desired < s.current.version ∧ s.Offers desired) ↔
        s.Offers desired := by
      simp [hgt, Nat.ne_of_gt hgt]
    exact ⟨fun hgranted => hmigrated.succeeds (hgrants.1 hgranted),
      fun hnot => hmigrated.fails fun hoffers => hnot (hgrants.2 hoffers)⟩

theorem Store.Untroubled.mended (h : s.Untroubled) : s.mended.Untroubled := by
  unfold Store.mended
  split
  · exact ⟨h.unfailing, h.unstopped⟩
  · exact h

/-- A rollback that fails leaves the store as it was, or mended. -/
theorem comes_rollbackVersion (h : s.Untroubled) (desired : Nat) :
    ∃ left, (left = s ∨ left = s.mended) ∧
      Comes (s.Grants desired .rollback) (s.mended.walked desired) left
      (evaluate (engine.rollbackVersion desired).run s) := by
  rw [Engine.rollbackVersion_eq]
  cases hclosed : s.closed with
  | true =>
    exact ⟨s, .inl rfl, .ofRefused (fun hgrants => by simp [hgrants.1] at hclosed)
      (evaluate_andThen_error (evaluate_current_closed h hclosed)) rfl⟩
  | false =>
    rw [evaluate_andThen (evaluate_current h hclosed)]
    by_cases hfits : s.current.dirty = true → s.current.version ≤ Engine.largestForced
    · -- the repair, where there is one, succeeds
      obtain ⟨t, hmended, ht⟩ : ∃ t,
          evaluate (if s.current.dirty then engine.repair s.current.version
            else pure () : Attempt interface Unit).run
              (s.record .version) = (.finished (.ok ()), t) ∧
          t.bare = s.mended.bare := by
        by_cases hdirty : s.current.dirty = true
        · rw [if_pos hdirty]
          exact evaluate_repair h hdirty (hfits hdirty)
        · rw [if_neg hdirty]
          exact ⟨_, rfl, by rw [Store.mended, if_neg hdirty]; rfl⟩
      rw [evaluate_andThen hmended]
      have hlowered := comes_lower h.mended ht desired
      rw [Store.mended_current, Store.mended_offers] at hlowered
      have hgrants : s.Grants desired .rollback ↔
          (s.current.version = desired ∨ desired < s.current.version ∧ s.Offers desired) :=
        ⟨fun hgrants => hgrants.2.2, fun hway => ⟨hclosed, hfits, hway⟩⟩
      exact ⟨s.mended, .inr rfl, fun hgranted => hlowered.succeeds (hgrants.1 hgranted),
        fun hnot => hlowered.fails fun hway => hnot (hgrants.2 hway)⟩
    · have hdirty : s.current.dirty = true := by
        by_contra hclean
        exact hfits fun hdirty => absurd hdirty hclean
      have hlarge : Engine.largestForced < s.current.version := by
        by_contra hsmall
        exact hfits fun _ => Nat.not_lt.1 hsmall
      refine ⟨s, .inl rfl, ?_⟩
      rw [if_pos hdirty, evaluate_andThen_error (evaluate_repair_refused hlarge)]
      exact .ofRefused (fun hgrants => hfits hgrants.2.1) rfl rfl

/-! ## With the engine -/

/-- The store when its lock timeout has been put back. -/
def Store.restored (s : Store) : Store :=
  (s.serve (.setLockTimeout (s.serve .defaultLockTimeout).1)).2

theorem Comes.ensuring {granted : Prop} {reached left : Store}
    {p : Program interface (Except Failure Unit)} (h : Comes granted reached left (evaluate p s)) :
    Comes granted reached left (evaluate (p.ensuring engine.restoreLockTimeout) s) := by
  have hrestored : ∀ t : Store,
      evaluate engine.restoreLockTimeout t = (.finished (), t.restored) := fun _ => rfl
  rw [evaluate_ensuring hrestored p s]
  constructor
  · intro hgranted
    obtain ⟨t, hfound, ht⟩ := h.succeeds hgranted
    exact ⟨t.restored, by rw [hfound], ht⟩
  · intro hnot
    obtain ⟨e, t, hfound, ht⟩ := h.fails hnot
    exact ⟨e, t.restored, by rw [hfound], ht⟩

/-- The store that an operation leaves which succeeds. -/
def Store.reached (s : Store) (desired : Nat) : Transition → Store
  | .assert => s
  | .apply => s.walked desired
  | .rollback => s.mended.walked desired

theorem comes_perform (h : s.Untroubled) (kind : Transition) (desired : Nat) :
    ∃ left, (left = s ∨ kind = .rollback ∧ left = s.mended) ∧
      Comes (s.Grants desired kind) (s.reached desired kind) left
        (evaluate (engine.perform kind desired).run s) := by
  cases kind with
  | assert => exact ⟨s, .inl rfl, comes_assertVersion h desired⟩
  | apply => exact ⟨s, .inl rfl, comes_applyVersion h desired⟩
  | rollback =>
    obtain ⟨left, hleft, hcomes⟩ := comes_rollbackVersion h desired
    exact ⟨left, hleft.imp_right fun hmended => ⟨rfl, hmended⟩, hcomes⟩

/-- Lock timeouts do not count. -/
theorem Comes.of_untimed {granted : Prop} {reached left : Store}
    {found found' : Outcome (Except Failure Unit) × Store} (h : Comes granted reached left found)
    (htold : found'.1 = found.1) (hsame : found'.2.untimed = found.2.untimed) :
    Comes granted reached left found' := by
  have hbare : found'.2.untimed.bare = found.2.untimed.bare := congrArg Store.bare hsame
  constructor
  · intro hgranted
    obtain ⟨t, rfl, ht⟩ := h.succeeds hgranted
    exact ⟨found'.2, Prod.ext htold rfl, hbare.trans ht⟩
  · intro hnot
    obtain ⟨e, t, rfl, ht⟩ := h.fails hnot
    exact ⟨e, found'.2, Prod.ext htold rfl, hbare.trans ht⟩

/-- A body comes to what its operation comes to, whatever time its context leaves it. -/
theorem comes_operation (h : s.Untroubled) (kind : Transition) (desired : Nat)
    (remaining : Option Duration) :
    ∃ left, (left = s ∨ kind = .rollback ∧ left = s.mended) ∧
      Comes (s.Grants desired kind) (s.reached desired kind) left
        (evaluate (engine.operation kind desired remaining) s) := by
  obtain ⟨left, hleft, hcomes⟩ := comes_perform h kind desired
  refine ⟨left, hleft, ?_⟩
  have hbody := hcomes.ensuring
  cases remaining with
  | none => exact hbody
  | some d =>
    obtain ⟨htold, hsame⟩ := evaluate_alike (s := (s.serve (.setLockTimeout d)).2) (t := s)
      (p := (engine.perform kind desired).run.ensuring engine.restoreLockTimeout) rfl
    exact hbody.of_untimed htold hsame

/-! ## Verdicts -/

theorem Store.walked_current (hclean : s.current.dirty = false) (target : Nat) :
    (s.walked target).current = ⟨target, false⟩ := by
  unfold Store.walked
  by_cases hthere : s.current.version = target
  · rw [if_pos hthere, ← hthere, ← hclean]
  · rw [if_neg hthere]
    unfold Store.current
    by_cases hzero : target = 0
    · simp [hzero]
    · simp [hzero]

theorem Store.walked_version {target : Nat} (h : s.current.version ≠ target) :
    (s.walked target).version = if target = 0 then none else some target := by
  rw [Store.walked, if_neg h]

theorem Store.walked_steps (s : Store) (target : Nat) :
    (s.walked target).steps = s.steps + (target - s.current.version) +
      (s.current.version - target) := by
  unfold Store.walked
  split
  · next hthere => simp [hthere]
  · rfl

/-- What an operation makes of a store `s`: what its caller is told, and the store `t` that it
leaves. -/
structure Verdict (s : Store) (kind : Transition) (desired : Nat) (told : Except Failure Unit)
    (t : Store) :
    Prop where
  /-- It succeeds where the store grants it, and nowhere else. -/
  granted : told = .ok () ↔ s.Grants desired kind
  asserted : kind = .assert → t.version = s.version ∧ t.dirty = s.dirty ∧ t.steps = s.steps
  applied : kind = .apply → told = .ok () →
    t.current = ⟨desired, false⟩ ∧ t.steps = s.steps + (desired - s.current.version)
  rolledBack : kind = .rollback → told = .ok () →
    t.current = ⟨desired, false⟩ ∧ t.steps = s.steps + (s.current.version - desired)
  /-- Whoever moves to 0 leaves no version. -/
  moved : told = .ok () → s.current.version ≠ desired → t.version = if desired = 0 then none
    else some desired
  /-- A failure moves nothing; that of a rollback may have taken a dirty flag off. -/
  failed : told ≠ .ok () → t.version = s.version ∧ t.steps = s.steps ∧
    (t.dirty = s.dirty ∨ kind = .rollback ∧ s.dirty = true ∧ t.dirty = false)

theorem Store.mended_steps (s : Store) : s.mended.steps = s.steps := by
  unfold Store.mended
  split <;> rfl

theorem Store.mended_dirty (s : Store) :
    s.mended.dirty = s.dirty ∨ s.dirty = true ∧ s.mended.dirty = false := by
  unfold Store.mended
  split
  · cases hdirty : s.dirty with
    | true => exact .inr ⟨rfl, rfl⟩
    | false => exact .inl rfl
  · exact .inl rfl

/-- The steps of an operation that succeeds all go one way. -/
theorem Store.reached_steps {kind : Transition} {desired : Nat} (hgranted : s.Grants desired kind) :
    (s.reached desired kind).steps =
      s.steps + match kind with
        | .assert => 0
        | .apply => desired - s.current.version
        | .rollback => s.current.version - desired := by
  cases kind with
  | assert => rfl
  | apply =>
    have hup : s.current.version ≤ desired := by
      rcases hgranted.2.2 with heq | ⟨hlt, -⟩ <;> omega
    simp only [Store.reached, Store.walked_steps]
    omega
  | rollback =>
    have hdown : desired ≤ s.current.version := by
      rcases hgranted.2.2 with heq | ⟨hlt, -⟩ <;> omega
    simp only [Store.reached, Store.walked_steps, Store.mended_current, Store.mended_steps]
    omega

theorem Store.reached_current {kind : Transition} {desired : Nat}
    (hgranted : s.Grants desired kind) :
    (s.reached desired kind).current = ⟨desired, false⟩ := by
  cases kind with
  | assert =>
    obtain ⟨-, hclean, hthere⟩ := hgranted
    rw [← hclean, ← hthere]
    rfl
  | apply => exact Store.walked_current hgranted.2.1 desired
  | rollback => exact Store.walked_current (by rw [Store.mended_current]) desired

theorem Store.reached_version {kind : Transition} {desired : Nat} (hgranted : s.Grants desired kind)
    (hmoves : s.current.version ≠ desired) :
    (s.reached desired kind).version = if desired = 0 then none else some desired := by
  cases kind with
  | assert => exact absurd hgranted.2.2 hmoves
  | apply => exact Store.walked_version hmoves
  | rollback => exact Store.walked_version (by rwa [Store.mended_current])

theorem verdict_of_comes {kind : Transition} {desired : Nat} {left : Store}
    {found : Outcome (Except Failure Unit) × Store}
    (hleft : left = s ∨ kind = .rollback ∧ left = s.mended)
    (h : Comes (s.Grants desired kind) (s.reached desired kind) left found) :
    Verdict s kind desired found.1.toResult found.2 := by
  by_cases hgranted : s.Grants desired kind
  · obtain ⟨t, rfl, ht⟩ := h.succeeds hgranted
    have hcurrent : t.current = ⟨desired, false⟩ :=
      (Store.same_of_bare Store.current (fun _ => rfl) ht).trans (Store.reached_current hgranted)
    have hsteps := (Store.same_of_bare Store.steps (fun _ => rfl) ht).trans
      (Store.reached_steps hgranted)
    have hversion : t.version = (s.reached desired kind).version :=
      Store.same_of_bare Store.version (fun _ => rfl) ht
    refine ⟨⟨fun _ => hgranted, fun _ => rfl⟩, ?_, ?_, ?_, ?_, fun hfailed => absurd rfl hfailed⟩
    · rintro rfl
      exact ⟨hversion, Store.same_of_bare Store.dirty (fun _ => rfl) ht, hsteps⟩
    · rintro rfl -
      exact ⟨hcurrent, hsteps⟩
    · rintro rfl -
      exact ⟨hcurrent, hsteps⟩
    · exact fun _ hmoves => hversion.trans (Store.reached_version hgranted hmoves)
  · obtain ⟨e, t, rfl, ht⟩ := h.fails hgranted
    have hversion : t.version = left.version := Store.same_of_bare Store.version (fun _ => rfl) ht
    have hdirty : t.dirty = left.dirty := Store.same_of_bare Store.dirty (fun _ => rfl) ht
    have hsteps : t.steps = left.steps := Store.same_of_bare Store.steps (fun _ => rfl) ht
    refine ⟨⟨nofun, fun hgrants => absurd hgrants hgranted⟩, ?_, nofun, nofun, nofun, fun _ => ?_⟩
    · rintro rfl
      obtain rfl : left = s := hleft.resolve_right fun hmended => Transition.noConfusion hmended.1
      exact ⟨hversion, hdirty, hsteps⟩
    · obtain rfl | ⟨rfl, rfl⟩ := hleft
      · exact ⟨hversion, hsteps, .inl hdirty⟩
      · refine ⟨hversion.trans s.mended_version, hsteps.trans s.mended_steps, ?_⟩
        rw [hdirty]
        exact s.mended_dirty.imp_right fun hcleaned => ⟨rfl, hcleaned⟩

/-- **What the three operations do to a store**, under a context that outlives the body. -/
theorem operation_verdict {x : Schedule interface Store} (h : x.AtRest) (hs : x.engine.Untroubled)
    (kind : Transition) (desired : Nat) {deadline expiry : Option Instant}
    (hlives : ∀ t, expiry = some t →
      ((engine.operation kind desired (deadline.map (· - x.now))).finish
        x.now x.engine).now < t) :
    ∃ told, (x.perform engine kind desired deadline expiry).1 = some told ∧
      Verdict x.engine kind desired told
        (x.perform engine kind desired deadline expiry).2.engine := by
  obtain ⟨htold, -, hleft, -⟩ := h.perform_inTime engine kind desired deadline expiry hlives
  obtain ⟨houtcome, hmachine⟩ :=
    finish_eq_evaluate (engine.operation kind desired (deadline.map (· - x.now))) x.now x.engine
  obtain ⟨left, hkept, hcomes⟩ := comes_operation hs kind desired (deadline.map (· - x.now))
  refine ⟨_, htold, ?_⟩
  rw [hleft, houtcome, hmachine]
  exact verdict_of_comes hkept hcomes

/-- A store that was left dirty at 3, where a step takes 10. -/
def halfWay : Store := { version := some 3, dirty := true, available := 5, stepDelay := 10 }

/-- It is repaired and goes down two steps within the time of its context. -/
theorem operation_verdict_halfWay :
    ∃ told, (({ engine := halfWay, now := 0 } : Schedule interface Store).perform engine .rollback 1
        (some 100) (some 100)).1 = some told ∧
      Verdict halfWay .rollback 1 told
        (({ engine := halfWay, now := 0 } : Schedule interface Store).perform
          engine .rollback 1 (some 100) (some 100)).2.engine := by
  refine operation_verdict (Schedule.atRest_start halfWay 0) ⟨fun _ => rfl, rfl⟩ .rollback 1 ?_
  rintro _ ⟨⟩
  decide +kernel

end Stairway.Memory
