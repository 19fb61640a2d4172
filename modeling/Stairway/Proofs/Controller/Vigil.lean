import Stairway.Proofs.Controller.Deadline
import Stairway.Proofs.Controller.Operations

/-!
# A caller who waits

The envelope says at once what a caller gets and when. Here the caller is taken look by look: it
looks whether its context is done, then whether the body has ended, and when it has, at the context
once more (`Caller.look`). A `Vigil` is what happens around it, where the body and everybody else go
on between any two looks; `Shows` says when the context is done in it and the body ends, if ever.

Whatever the vigil, the caller answers what the envelope says (`Shows.answers_iff`). That it says no
more is an invariant of waiting: time stands from when there is something to see until the caller
has answered (`Shows.stands`). That it says no less needs that its turn comes again and again.

`deadline_kept` puts this beside what is told of a body that runs on a machine. No body of a
controller reports on its own account that time ran out (`Engine.operation_gives`).
-/

namespace Stairway

/-! ## The caller, look by look -/

/-- A caller of a body. -/
inductive Caller (α : Type) where
  /-- It looks at the context next. -/
  | looking
  /-- The context was not done; it looks next whether the body has ended. -/
  | listening
  /-- The body has ended; it looks at the context once more. -/
  | joined (outcome : Outcome (Except Failure α))
  | answered (time : Instant) (result : Except Failure α)

/-- What there is for a caller to see. -/
structure Moment (α : Type) where
  clock : Instant
  isDone : Bool
  ended : Option (Outcome (Except Failure α))

/-- One look. The context comes before the body, and once more when the body has ended. -/
def Caller.look {α : Type} (m : Moment α) : Caller α → Caller α
  | looking => if m.isDone then answered m.clock (.error .timedOut) else listening
  | listening =>
    match m.ended with
    | some o => joined o
    | none => looking
  | joined o => answered m.clock (if m.isDone then .error .timedOut else o.toResult)
  | answered t r => answered t r

/-- What happens around a caller, moment by moment, and at which moments it comes to its turn.
Between two of its looks anything may happen, also within one instant. -/
structure Vigil (α : Type) where
  moment : Nat → Moment α
  turn : Nat → Bool

namespace Vigil

variable {α : Type}

def clock (v : Vigil α) (k : Nat) : Instant := (v.moment k).clock

/-- The caller before moment number `k`. -/
def caller (v : Vigil α) : Nat → Caller α
  | 0 => .looking
  | k + 1 => if v.turn k then (v.caller k).look (v.moment k) else v.caller k

def Answers (v : Vigil α) (t : Instant) (r : Except Failure α) : Prop :=
  ∃ k, v.caller k = .answered t r

/-- Something that happens at moment `k`, if at all. -/
def HasAnswered (v : Vigil α) (k : Nat) : Prop := ∃ t r, v.caller k = .answered t r

/-- The vigil begins at `start`, under a context that is done from `expiry` on, over a body that
ends as `ending` says; `none` never comes. -/
structure Shows (v : Vigil α) (start : Instant) (expiry : Option Instant)
    (ending : Option (Instant × Outcome (Except Failure α))) : Prop where
  begins : v.clock 0 = start
  forward : ∀ k, v.clock k ≤ v.clock (k + 1)
  lives : expiry = none → ∀ k, (v.moment k).isDone = false
  expires : ∀ e, expiry = some e →
    ∃ first, v.clock first = max start e ∧ ∀ k, (v.moment k).isDone = true ↔ first ≤ k
  runs : ending = none → ∀ k, (v.moment k).ended = none
  ends : ∀ t o, ending = some (t, o) → ∃ first, v.clock first = t ∧
    (∀ k, (v.moment k).ended = if first ≤ k then some o else none) ∧
    -- whoever ends both at one instant, ends the context first
    ∀ e, expiry = some e → e ≤ t → (v.moment first).isDone = true
  /-- The caller's turn comes again and again. -/
  fair : ∀ k, ∃ j, k ≤ j ∧ v.turn j = true
  /-- Time does not pass while there is something for the caller to see. -/
  prompt : ∀ k, v.clock k ≠ v.clock (k + 1) →
    v.HasAnswered k ∨ (v.moment k).isDone = false ∧ (v.moment k).ended = none

variable {v : Vigil α} {start : Instant} {expiry : Option Instant}
  {ending : Option (Instant × Outcome (Except Failure α))}

theorem hasAnswered_succ {k : Nat} (h : v.HasAnswered k) : v.HasAnswered (k + 1) := by
  obtain ⟨t, r, hcaller⟩ := h
  refine ⟨t, r, ?_⟩
  rw [caller, hcaller]
  split <;> rfl

/-- An answer is given at a look, by a caller who had not answered before. -/
theorem exists_look {t : Instant} {r : Except Failure α} : ∀ {k : Nat}, v.caller k = .answered t r →
    ∃ j, ¬ v.HasAnswered j ∧ (v.caller j).look (v.moment j) = .answered t r := by
  intro k
  induction k with
  | zero => exact nofun
  | succ k ih =>
    intro hcaller
    rw [caller] at hcaller
    by_cases hbefore : v.HasAnswered k
    · obtain ⟨t', r', hanswered⟩ := hbefore
      refine ih ?_
      rw [hanswered] at hcaller ⊢
      split at hcaller <;> exact hcaller
    · split at hcaller
      · exact ⟨k, hbefore, hcaller⟩
      · exact absurd ⟨t, r, hcaller⟩ hbefore

/-- Who has joined a body has seen it end. -/
theorem exists_ended {o : Outcome (Except Failure α)} : ∀ {k : Nat}, v.caller k = .joined o →
    ∃ j ≤ k, (v.moment j).ended = some o := by
  intro k
  induction k with
  | zero => exact nofun
  | succ k ih =>
    intro hcaller
    have hearlier (hjoined : v.caller k = .joined o) : ∃ j ≤ k + 1,
        (v.moment j).ended = some o := by
      obtain ⟨j, hj, hended⟩ := ih hjoined
      exact ⟨j, Nat.le_succ_of_le hj, hended⟩
    rw [caller] at hcaller
    split at hcaller
    · cases hbefore : v.caller k with
      | looking =>
        simp only [hbefore, Caller.look] at hcaller
        split at hcaller <;> cases hcaller
      | listening =>
        simp only [hbefore, Caller.look] at hcaller
        split at hcaller
        · next o' hended =>
          cases hcaller
          exact ⟨k, Nat.le_succ k, hended⟩
        · cases hcaller
      | joined o' =>
        simp [hbefore, Caller.look] at hcaller
      | answered t r =>
        simp [hbefore, Caller.look] at hcaller
    · exact hearlier hcaller

namespace Shows

variable (h : v.Shows start expiry ending)

include h

theorem clock_mono {k j : Nat} (hkj : k ≤ j) : v.clock k ≤ v.clock j := by
  induction hkj with
  | refl => exact Nat.le_refl _
  | step _ ih => exact Nat.le_trans ih (h.forward _)

/-- Time stands from when there is something to see until the caller has answered. -/
theorem stands {k j : Nat} (hkj : k ≤ j)
    (hseen : ∀ i, k ≤ i → ¬ ((v.moment i).isDone = false ∧ (v.moment i).ended = none))
    (hwaits : ¬ v.HasAnswered j) : v.clock j = v.clock k := by
  induction hkj with
  | refl => rfl
  | @step j hkj ih =>
    have hwaited : ¬ v.HasAnswered j := fun hanswered => hwaits (hasAnswered_succ hanswered)
    rw [← ih hwaited]
    exact Decidable.byContradiction fun hmoved =>
      (h.prompt j (Ne.symm hmoved)).elim hwaited (hseen j hkj)

/-- A caller who sees that the context is done, and has not answered yet. -/
theorem timedOut {k : Nat} (hwaits : ¬ v.HasAnswered k) (hdone : (v.moment k).isDone = true) :
    envelope start expiry ending = some (v.clock k, .error .timedOut) := by
  cases expiry with
  | none => simp [h.lives rfl k] at hdone
  | some e =>
    obtain ⟨first, hfirst, hisDone⟩ := h.expires e rfl
    have hclock : v.clock k = max start e := by
      rw [← hfirst]
      refine h.stands ((hisDone k).1 hdone) (fun i hi => ?_) hwaits
      simp [(hisDone i).2 hi]
    rw [hclock]
    cases ending with
    | none => rfl
    | some end_ =>
      obtain ⟨t, o⟩ := end_
      refine envelope_tooLate (Nat.not_lt.1 fun hlt => ?_)
      -- the caller would have been told of a body that had ended earlier
      obtain ⟨ended, htime, hended, -⟩ := h.ends t o rfl
      have hearly : ¬ max start e ≤ t :=
        fun hle => Nat.not_le.2 hlt (Nat.le_trans (Nat.le_max_right _ _) hle)
      have hbefore : ended ≤ k := Nat.not_lt.1 fun hafter => hearly (by
        rw [← hclock, ← htime]
        exact h.clock_mono (Nat.le_of_lt hafter))
      refine hearly (Nat.le_of_eq ?_)
      rw [← hclock, ← htime]
      exact h.stands hbefore (fun i hi => by simp [hended, hi]) hwaits

/-- A caller who has seen the body end, and that the context was not done then. -/
theorem inTime {k j : Nat} {o : Outcome (Except Failure α)} (hwaits : ¬ v.HasAnswered k)
    (hlives : (v.moment k).isDone = false) (hjk : j ≤ k) (hjoined : (v.moment j).ended = some o) :
    envelope start expiry ending = some (v.clock k, o.toResult) := by
  cases ending with
  | none => simp [h.runs rfl j] at hjoined
  | some end_ =>
    obtain ⟨t, o'⟩ := end_
    obtain ⟨first, hfirst, hended, htie⟩ := h.ends t o' rfl
    rw [hended] at hjoined
    split at hjoined
    · next hafter =>
      obtain rfl := Option.some_inj.1 hjoined
      have hclock : v.clock k = t := by
        rw [← hfirst]
        exact h.stands (Nat.le_trans hafter hjk) (fun i hi => by simp [hended, hi]) hwaits
      rw [hclock]
      refine envelope_inTime fun e he => Nat.not_le.1 fun hlate => ?_
      obtain ⟨expired, -, hisDone⟩ := h.expires e he
      have hearly := (hisDone first).1 (htie e he hlate)
      have hdone := (hisDone k).2 (Nat.le_trans hearly (Nat.le_trans hafter hjk))
      simp [hdone] at hlives
    · cases hjoined

/-- Whatever a caller answers is what the envelope says. -/
theorem sound {t : Instant} {r : Except Failure α} (hanswers : v.Answers t r) :
    envelope start expiry ending = some (t, r) := by
  obtain ⟨k, hcaller⟩ := hanswers
  obtain ⟨j, hwaits, hlook⟩ := exists_look hcaller
  cases hbefore : v.caller j with
  | looking =>
    rw [hbefore, Caller.look] at hlook
    split at hlook
    · next hdone =>
      cases hlook
      exact h.timedOut hwaits hdone
    · cases hlook
  | listening =>
    rw [hbefore, Caller.look] at hlook
    split at hlook <;> cases hlook
  | joined o =>
    rw [hbefore, Caller.look] at hlook
    cases hlook
    cases hdone : (v.moment j).isDone with
    | true => exact h.timedOut hwaits hdone
    | false =>
      obtain ⟨i, hij, hended⟩ := exists_ended hbefore
      exact h.inTime hwaits hdone hij hended
  | answered t' r' => exact absurd ⟨t', r', hbefore⟩ hwaits

/-- The next look of a caller. -/
theorem exists_next (k : Nat) : ∃ j, k ≤ j ∧ v.caller (j + 1) = (v.caller k).look (v.moment j) := by
  obtain ⟨j, hkj, hturn⟩ := h.fair k
  obtain ⟨d, rfl⟩ := Nat.exists_eq_add_of_le hkj
  clear hkj
  induction d generalizing k with
  | zero => exact ⟨k, Nat.le_refl k, if_pos hturn⟩
  | succ d ih =>
    by_cases hnow : v.turn k = true
    · exact ⟨k, Nat.le_refl k, if_pos hnow⟩
    · have hsame : v.caller (k + 1) = v.caller k := if_neg hnow
      obtain ⟨j, hkj, hlook⟩ := ih (k + 1) (by rwa [Nat.add_right_comm k 1 d])
      exact ⟨j, Nat.le_of_succ_le hkj, by rw [hlook, hsame]⟩

theorem answers_of_joined {k : Nat} {o : Outcome (Except Failure α)}
    (hjoined : v.caller k = .joined o) :
    ∃ t r, v.Answers t r := by
  obtain ⟨j, -, hlook⟩ := h.exists_next k
  rw [hjoined] at hlook
  exact ⟨_, _, j + 1, hlook⟩

/-- A context that is done is seen. -/
theorem answers_of_done {n : Nat} (hdone : ∀ k, n ≤ k → (v.moment k).isDone = true) :
    ∃ t r, v.Answers t r := by
  have hlooking {k : Nat} (hk : n ≤ k) (hcaller : v.caller k = .looking) :
      ∃ t r, v.Answers t r := by
    obtain ⟨j, hkj, hlook⟩ := h.exists_next k
    rw [hcaller, Caller.look, hdone j (Nat.le_trans hk hkj), if_pos rfl] at hlook
    exact ⟨_, _, j + 1, hlook⟩
  cases hcaller : v.caller n with
  | looking => exact hlooking (Nat.le_refl n) hcaller
  | listening =>
    obtain ⟨j, hnj, hlook⟩ := h.exists_next n
    rw [hcaller, Caller.look] at hlook
    split at hlook
    · exact h.answers_of_joined hlook
    · exact hlooking (Nat.le_succ_of_le hnj) hlook
  | joined o => exact h.answers_of_joined hcaller
  | answered t r => exact ⟨t, r, n, hcaller⟩

/-- A body that has ended is seen. -/
theorem answers_of_ended {n : Nat} {o : Outcome (Except Failure α)}
    (hended : ∀ k, n ≤ k → (v.moment k).ended = some o) : ∃ t r, v.Answers t r := by
  have hlistening {k : Nat} (hk : n ≤ k) (hcaller : v.caller k = .listening) :
      ∃ t r, v.Answers t r := by
    obtain ⟨j, hkj, hlook⟩ := h.exists_next k
    rw [hcaller, Caller.look, hended j (Nat.le_trans hk hkj)] at hlook
    exact h.answers_of_joined hlook
  cases hcaller : v.caller n with
  | looking =>
    obtain ⟨j, hnj, hlook⟩ := h.exists_next n
    rw [hcaller, Caller.look] at hlook
    split at hlook
    · exact ⟨_, _, j + 1, hlook⟩
    · exact hlistening (Nat.le_succ_of_le hnj) hlook
  | listening => exact hlistening (Nat.le_refl n) hcaller
  | joined o => exact h.answers_of_joined hcaller
  | answered t r => exact ⟨t, r, n, hcaller⟩

/-- **Look by look a caller gets what the envelope says**, and nothing else. -/
theorem answers_iff (t : Instant) (r : Except Failure α) :
    v.Answers t r ↔ envelope start expiry ending = some (t, r) := by
  refine ⟨h.sound, fun henvelope => ?_⟩
  have hanswers : ∃ t r, v.Answers t r := by
    cases hexpiry : expiry with
    | some e =>
      obtain ⟨first, -, hisDone⟩ := h.expires e hexpiry
      exact h.answers_of_done fun k hk => (hisDone k).2 hk
    | none =>
      cases hending : ending with
      | none =>
        rw [hexpiry, hending] at henvelope
        cases henvelope
      | some end_ =>
        obtain ⟨first, -, hended, -⟩ := h.ends end_.1 end_.2 hending
        exact h.answers_of_ended fun k hk => by rw [hended, if_pos hk]
  obtain ⟨t', r', hgiven⟩ := hanswers
  have hsame := (h.sound hgiven).symm.trans henvelope
  simp only [Option.some.injEq, Prod.mk.injEq] at hsame
  obtain ⟨rfl, rfl⟩ := hsame
  exact hgiven

end Shows

end Vigil

/-! ## Bodies that leave time-outs to their caller -/

/-- Everything that a program can answer with is as `V` says. -/
def Program.Gives {I : Interface} {α : Type} (V : α → Prop) : Program I α → Prop
  | .done a => V a
  | .crash => True
  | .pause _ next => next.Gives V
  | .race _ next => ∀ isDone, (next isDone).Gives V
  | .ask _ next => ∀ a, (next a).Gives V

namespace Program.Gives

variable {I : Interface} {α β : Type} {V : α → Prop} {W : β → Prop}

theorem bind {p : Program I α} {f : α → Program I β} (hp : p.Gives V)
    (hf : ∀ a, V a → (f a).Gives W) :
    (p.bind f).Gives W := by
  induction p with
  | done a => exact hf a hp
  | crash => exact trivial
  | pause d next ih => exact ih hp
  | race d next ih => exact fun isDone => ih isDone (hp isDone)
  | ask r next ih => exact fun a => ih a (hp a)

theorem any (p : Program I α) : p.Gives fun _ => True := by
  induction p with
  | done a => exact trivial
  | crash => exact trivial
  | pause d next ih => exact ih
  | race d next ih => exact ih
  | ask r next ih => exact ih

/-- What comes last settles what is answered. -/
theorem last (p : Program I α) {f : α → Program I β} (hf : ∀ a, (f a).Gives W) :
    (p.bind f).Gives W :=
  (any p).bind fun a _ => hf a

theorem ensuring {p : Program I α} {cleanup : Program I Unit} (hp : p.Gives V) :
    (p.ensuring cleanup).Gives V := by
  induction p with
  | done a => exact last cleanup fun _ => hp
  | crash => exact last cleanup fun _ => trivial
  | pause d next ih => exact ih hp
  | race d next ih => exact fun isDone => ih isDone (hp isDone)
  | ask r next ih => exact fun a => ih a (hp a)

theorem run {σ : Type} [Machine I σ] (expiry : Option Instant) {p : Program I α} (hp : p.Gives V) :
    ∀ {now : Instant} {m : σ} {a : α},
      (p.run expiry none now m).activity = .ended (.finished a) → V a := by
  induction p with
  | done b =>
    intro now m a h
    cases h
    exact hp
  | crash => exact nofun
  | pause d next ih =>
    intro now m a h
    simp only [Program.run_pause, Program.isBefore_none, if_true] at h
    exact ih hp h
  | race d next ih =>
    intro now m a h
    simp only [Program.run_race, Program.isBefore_none, Bool.or_true, if_true] at h
    exact ih _ (hp _) h
  | ask r next ih =>
    intro now m a h
    rcases harrive : Machine.arrive r now m with ⟨_ | d, m'⟩
    · rw [Program.run_ask_now harrive] at h
      exact ih _ (hp _) h
    · rw [Program.run_ask_later harrive, if_pos (Program.isBefore_none _)] at h
      exact ih _ (hp _) h

end Program.Gives

/-- An attempt that does not fail by running out of time. -/
def Attempt.LeavesTime {I : Interface} {α : Type} (x : Attempt I α) : Prop :=
  x.run.Gives (· ≠ .error .timedOut)

namespace Attempt.LeavesTime

variable {I : Interface} {α β : Type}

theorem andThen {x : Attempt I α} {f : α → Attempt I β} (hx : x.LeavesTime)
    (hf : ∀ a, (f a).LeavesTime) :
    (x >>= f).LeavesTime := by
  refine Program.Gives.bind (p := x.run) hx fun r hr => ?_
  cases r with
  | error e => exact fun h => hr (by cases h; rfl)
  | ok a => exact hf a

theorem ofEngine (p : Program I (Except EngineError α)) : (Attempt.ofEngine p).LeavesTime := by
  refine Program.Gives.last p fun r => ?_
  cases r with
  | error e => exact nofun
  | ok a => exact nofun

theorem throws {f : Failure} (h : f ≠ .timedOut) :
    (throw f : Attempt I α).LeavesTime := fun hthrown =>
  h (by cases hthrown; rfl)

theorem info (e : Engine I) (line : String) : (e.info line).LeavesTime :=
  Program.Gives.last (e.log line) fun _ => nofun

theorem current (e : Engine I) : e.current.LeavesTime :=
  (ofEngine e.version).andThen fun _ => nofun

theorem migrate (e : Engine I) (desired : Nat) (announced confirmed : String) :
    (do
      e.info announced
      Attempt.ofEngine (e.migrateTo desired)
      e.info confirmed : Attempt I Unit).LeavesTime :=
  (info e announced).andThen fun _ => (ofEngine _).andThen fun _ => info e confirmed

theorem perform (e : Engine I) (kind : Transition) (desired : Nat) :
    (e.perform kind desired).LeavesTime := by
  cases kind with
  | assert =>
    simp only [Engine.perform, Engine.assertVersion_eq]
    refine (current e).andThen fun c => ?_
    repeat' split
    · exact throws nofun
    · exact throws nofun
    · exact throws nofun
    · exact info e _
  | apply =>
    simp only [Engine.perform, Engine.applyVersion_eq]
    refine (current e).andThen fun c => ?_
    repeat' split
    · exact throws nofun
    · exact info e _
    · exact throws nofun
    · exact migrate e desired _ _
  | rollback =>
    simp only [Engine.perform, Engine.rollbackVersion_eq]
    refine (current e).andThen fun c => andThen ?_ fun _ => ?_
    · split
      · rw [Engine.repair_eq]
        refine (info e _).andThen fun _ => ?_
        split
        · exact throws nofun
        · exact ofEngine _
      · exact nofun
    · unfold Engine.lower
      repeat' split
      · exact info e _
      · exact throws nofun
      · exact migrate e desired _ _

end Attempt.LeavesTime

section

variable {I : Interface} (e : Engine I)

theorem Engine.operation_gives (kind : Transition) (desired : Nat) (remaining : Option Duration) :
    (e.operation kind desired remaining).Gives (· ≠ .error .timedOut) := by
  have hbody : (Program.ensuring (e.perform kind desired).run e.restoreLockTimeout).Gives
      (· ≠ .error .timedOut) := (Attempt.LeavesTime.perform e kind desired).ensuring
  cases remaining with
  | none => exact hbody
  | some d => exact Program.Gives.last (e.setLockTimeout d) fun _ => hbody

theorem Engine.closing_gives (isBenign : String → Bool) :
    (e.closing isBenign).Gives (· ≠ .error .timedOut) := by
  refine Program.Gives.last e.close fun result => ?_
  simp only
  split
  · next failure hfailure =>
    unfold Engine.combineCloseErrors at hfailure
    split at hfailure <;> cases hfailure <;> exact nofun
  · exact Program.Gives.last (e.log "Closed migrator") fun _ => nofun

theorem Settings.connecting_gives {ε : Type} (s : Settings) (log : String → Program I Unit)
    (connect : Program I (Except EngineError ε)) :
    (s.connecting log connect).Gives (· ≠ .error .timedOut) := by
  refine Program.Gives.last _ fun r => ?_
  cases r with
  | error e => exact nofun
  | ok a => exact nofun

end

/-! ## The deadline of a body -/

/-- **A deadline is kept**, whenever the body ends and the context is done, if ever: look by look,
and for a body on a machine, where what is left when the caller goes runs on to the end of the whole
run. A time-out that is not the context's is one that the body gave as its answer, and no body of a
controller does. -/
theorem deadline_kept {α : Type} (start : Instant) (expiry : Option Instant) :
    (∀ (v : Vigil α) (ending : Option (Instant × Outcome (Except Failure α))),
      v.Shows start expiry ending →
      KeepsDeadline start expiry ending v.Answers) ∧
    ∀ {I : Interface} {σ : Type} [Machine I σ] (machine : σ),
      (∀ body : Program I (Except Failure α),
        let whole := body.run expiry none start machine
        let found := runUnder start expiry machine body
        ∃ o, whole.activity = .ended o ∧
          KeepsDeadline start expiry (some (whole.now, o)) (fun i r => found.1 = some (i, r)) ∧
          found.2.activity.run expiry none found.2.now found.2.machine = whole ∧
          (body.Gives (· ≠ .error .timedOut) → o ≠ .finished (.error .timedOut))) ∧
      ∀ e : Engine I,
        (∀ kind desired remaining,
          (e.operation kind desired remaining).Gives (· ≠ .error .timedOut)) ∧
        (∀ isBenign, (e.closing isBenign).Gives (· ≠ .error .timedOut)) ∧
        ∀ (s : Settings) (connect : Program I (Except EngineError α)),
          (s.connecting e.log connect).Gives (· ≠ .error .timedOut) := by
  have hvigil (v : Vigil α) (ending : Option (Instant × Outcome (Except Failure α)))
      (h : v.Shows start expiry ending) : KeepsDeadline start expiry ending v.Answers := by
    have hsame : v.Answers = fun i r => envelope start expiry ending = some (i, r) := by
      funext i r
      exact propext (h.answers_iff i r)
    rw [hsame]
    exact envelope_keepsDeadline start expiry ending
  refine ⟨hvigil, fun {I σ} _ machine => ⟨fun body => ?_, fun e => ?_⟩⟩
  · intro whole found
    obtain ⟨o, ho⟩ := body.run_ends expiry start machine
    have hwhole : body.run expiry none start machine = ⟨.ended o, whole.machine, whole.now⟩ := by
      rw [← ho]
    obtain ⟨hanswer, hresumed⟩ := runUnder_whole hwhole
    refine ⟨o, ho, ?_, hresumed.trans hwhole.symm, ?_⟩
    · rw [hanswer]
      exact envelope_keepsDeadline start expiry _
    · intro hgives hreports
      exact hgives.run expiry (ho.trans (congrArg Activity.ended hreports)) rfl
  · exact ⟨e.operation_gives, e.closing_gives, fun s connect => s.connecting_gives e.log connect⟩

/-- A body that cancels its own context and fails, behind the back of a caller who has
just looked. -/
def secondLook : Vigil Unit where
  moment k :=
    ⟨0, decide (1 ≤ k), if 1 ≤ k then some (.finished (.error (.other "lost the race"))) else none⟩
  turn _ := true

theorem secondLook_shows :
    secondLook.Shows 0 (some 0) (some (0, .finished (.error (.other "lost the race")))) where
  begins := rfl
  forward _ := Nat.le_refl 0
  lives := nofun
  expires e he := ⟨1, by cases he; rfl, fun k => by simp [secondLook]⟩
  runs := nofun
  ends t o ho := by
    cases ho
    exact ⟨1, rfl, fun k => rfl, fun _ _ _ => rfl⟩
  fair k := ⟨k, Nat.le_refl k, rfl⟩
  prompt k hmoves := absurd rfl hmoves

/-- The caller hears of the context all the same. -/
theorem deadline_kept_secondLook :
    secondLook.Shows 0 (some 0) (some (0, .finished (.error (.other "lost the race")))) ∧
      KeepsDeadline 0 (some 0) (some (0, .finished (.error (.other "lost the race"))))
        secondLook.Answers ∧
      secondLook.caller 2 = .joined (.finished (.error (.other "lost the race"))) ∧
      secondLook.Answers 0 (.error .timedOut) :=
  ⟨secondLook_shows, (deadline_kept 0 (some 0)).1 secondLook _ secondLook_shows, rfl, 3, rfl⟩

end Stairway
