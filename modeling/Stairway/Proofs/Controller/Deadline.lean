import Stairway.Controller.Connect
import Stairway.Proofs.Program.Bounds

/-!
# Bodies under a deadline

`KeepsDeadline` is what a caller may rely on who waits for a body under a context: who wins, when,
and that nobody is told too early that time ran out. The envelope keeps it
(`envelope_keepsDeadline`).

What a caller gets of a body on a machine is how the whole run ends, looked at through the envelope,
and a body that is left behind runs on to that end (`runUnder_whole`). So what is to be known of a
body is read off the run that nobody breaks off.
-/

namespace Stairway

/-! ## The envelope -/

section

variable {α : Type} {start t e : Instant} {expiry : Option Instant} {o : Outcome (Except Failure α)}

theorem envelope_inTime (h : ∀ e, expiry = some e → t < e) :
    envelope start expiry (some (t, o)) = some (t, o.toResult) := by
  cases expiry with
  | none => rfl
  | some e => rw [envelope, if_pos (h e rfl)]

theorem envelope_tooLate (h : e ≤ t) :
    envelope start (some e) (some (t, o)) = some (max start e, .error .timedOut) := by
  rw [envelope, if_neg (Nat.not_lt.2 h)]

end

/-- What a caller gets, and when, who begins to wait at `start` under a context that is done from
`expiry` on, for a body that ends as `ending` says; `none` never comes. -/
structure KeepsDeadline {α : Type} (start : Instant) (expiry : Option Instant)
    (ending : Option (Instant × Outcome (Except Failure α)))
    (answers : Instant → Except Failure α → Prop) :
    Prop where
  /-- The context wins if it is done by the end of the body, and at once if it has been done before.
  -/
  tooLate : ∀ e, expiry = some e → (∀ t o, ending = some (t, o) → e ≤ t) →
    ∀ i r, answers i r ↔ i = max start e ∧ r = .error .timedOut
  /-- A body that ends before has its say. -/
  inTime : ∀ t o, ending = some (t, o) → (∀ e, expiry = some e → t < e) →
    ∀ i r, answers i r ↔ i = t ∧ r = o.toResult
  never : expiry = none → ending = none → ∀ i r, ¬ answers i r
  /-- Nobody is told that time ran out before it has, unless the body itself says so. -/
  honest : ∀ i, answers i (.error .timedOut) →
    (∃ e, expiry = some e ∧ e ≤ i) ∨ ending = some (i, .finished (.error .timedOut))

theorem toResult_eq_timedOut {α : Type} {o : Outcome (Except Failure α)}
    (h : o.toResult = .error .timedOut) :
    o = .finished (.error .timedOut) := by
  cases o with
  | finished r => exact congrArg Outcome.finished h
  | crashed => cases h

theorem envelope_keepsDeadline {α : Type} (start : Instant) (expiry : Option Instant)
    (ending : Option (Instant × Outcome (Except Failure α))) :
    KeepsDeadline start expiry ending fun i r => envelope start expiry ending = some (i, r) := by
  have hpair (i i' : Instant) (r r' : Except Failure α) : some (i', r') =
      some (i, r) ↔ i = i' ∧ r = r' := by
    simp only [Option.some.injEq, Prod.mk.injEq, eq_comm]
  refine ⟨?_, ?_, ?_, ?_⟩
  · rintro e rfl hlate i r
    cases ending with
    | none => exact hpair ..
    | some ended =>
      rw [envelope_tooLate (hlate ended.1 ended.2 rfl)]
      exact hpair ..
  · rintro t o rfl hlives i r
    rw [envelope_inTime hlives]
    exact hpair ..
  · rintro rfl rfl i r
    exact nofun
  · intro i htimedOut
    cases ending with
    | none =>
      cases expiry with
      | none => cases htimedOut
      | some e =>
        exact .inl ⟨e, rfl, by rw [((hpair ..).1 htimedOut).1]; exact Nat.le_max_right _ _⟩
    | some ended =>
      obtain ⟨t, o⟩ := ended
      by_cases hlives : ∀ e, expiry = some e → t < e
      · rw [envelope_inTime hlives] at htimedOut
        obtain ⟨rfl, hresult⟩ := (hpair ..).1 htimedOut
        exact .inr (by rw [toResult_eq_timedOut hresult.symm])
      · obtain ⟨e, rfl, hle⟩ : ∃ e, expiry = some e ∧ e ≤ t := by simpa using hlives
        rw [envelope_tooLate hle] at htimedOut
        exact .inl ⟨e, rfl, by rw [((hpair ..).1 htimedOut).1]; exact Nat.le_max_right _ _⟩

/-! ## Bodies on a machine -/

/-- **What a caller gets is how the whole run ends, looked at through the context**; and what is
left of a body when its caller goes runs on to that end. -/
theorem runUnder_whole {I : Interface} {σ α : Type} [Machine I σ] {start : Instant}
    {expiry : Option Instant} {machine m : σ} {body : Program I (Except Failure α)}
    {o : Outcome (Except Failure α)} {t : Instant}
    (h : body.run expiry none start machine = ⟨.ended o, m, t⟩) :
    let found := runUnder start expiry machine body
    found.1 = envelope start expiry (some (t, o)) ∧
      found.2.activity.run expiry none found.2.now found.2.machine = ⟨.ended o, m, t⟩ := by
  have hlate : start ≤ t := by
    have := body.le_run expiry none start machine
    rwa [h] at this
  have hfresh : (Activity.ofProgram start body).run expiry none start machine =
      ⟨.ended o, m, t⟩ := by
    simpa [Activity.ofProgram, Activity.run_asleep] using h
  cases expiry with
  | none =>
    simp only [runUnder, Option.any_none, Option.map_none, Bool.false_eq_true, if_false, hfresh]
    exact ⟨trivial, rfl⟩
  | some e =>
    by_cases hexpired : e ≤ start
    · simp only [runUnder, Option.any_some, hexpired, decide_true, if_true, hfresh]
      rw [envelope_tooLate (Nat.le_trans hexpired hlate), Nat.max_eq_left hexpired]
      exact ⟨rfl, trivial⟩
    · obtain ⟨hresumed, hpart⟩ := body.run_resumed (some e) (e + 1) start machine
      have hstarted : (Activity.ofProgram start body).run (some e) (some (e + 1)) start machine =
          body.run (some e) (some (e + 1)) start machine := by
        have hbefore : start < e + 1 := Nat.lt_succ_of_lt (Nat.not_le.1 hexpired)
        simp [Activity.ofProgram, Activity.run_asleep, hbefore]
      simp only [runUnder, Option.any_some, hexpired, decide_false, Bool.false_eq_true, if_false,
        Option.map_some, hstarted]
      refine ⟨?_, hresumed.trans h⟩
      rcases hpart with hwhole | ⟨hunended, hbound⟩
      · rw [hwhole, h]
      · rw [h] at hbound
        have hpast : e ≤ t := Nat.le_of_succ_le hbound
        simp only [envelope_tooLate hpast]
        rfl

end Stairway
