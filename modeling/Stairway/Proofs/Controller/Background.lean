import Stairway.Proofs.Controller.Attendance
import Stairway.Proofs.Controller.Deadline
import Stairway.Proofs.Controller.Operations
import Stairway.Proofs.Program.Finish

/-!
# Callers that never leave

Under contexts that are never done a controller does one operation after the other: between two
calls the schedule is `AtRest`, and a call is its body run to the end (`AtRest.perform`). So it is
under any context that lives longer than the body (`AtRest.perform_inTime`).

So two engines that come to the same on related machines (`Engine.Alike`) cannot be told apart
through a controller. `sights` is what there is to see of a list of calls, and `sights_alike` says
that it is the same.
-/

namespace Stairway

open Program (Alike OnValue)

variable {I J : Interface} {σ τ α : Type} [Machine I σ] [Machine J τ]

/-! ## Engines that come to the same -/

namespace Engine

/-- Two engines whose programs come to the same on related machines, where no version is
ever dirty. -/
structure Alike (clock : Program.Clock) (R : σ → τ → Prop) (e : Engine I)
    (e' : Engine J) : Prop where
  version : Program.Alike clock R (OnValue fun v => (v.getD ⟨0, false⟩).dirty = false)
    e.version e'.version
  migrateTo : ∀ target,
    Program.Alike clock R (fun _ => True) (e.migrateTo target) (e'.migrateTo target)
  log : ∀ line, Program.Alike clock R (fun _ => True) (e.log line) (e'.log line)
  restoreLockTimeout : Program.Alike clock R
    (fun _ => True) e.restoreLockTimeout e'.restoreLockTimeout

namespace Alike

variable {clock : Program.Clock} {R : σ → τ → Prop} {e : Engine I} {e' : Engine J}

theorem throws (f : Failure) :
    Program.Alike clock R (OnValue fun _ => True) (throw f : Attempt I Unit).run
      (throw f : Attempt J Unit).run :=
  .done trivial

theorem ofEngine {V : α → Prop} {p : Program I (Except EngineError α)}
    {q : Program J (Except EngineError α)} (h : Program.Alike clock R (OnValue V) p q) :
    Program.Alike clock R (OnValue V) (Attempt.ofEngine p).run (Attempt.ofEngine q).run := by
  refine Program.Alike.bind h ?_
  rintro (err | a) ha
  · exact .done trivial
  · exact .done ha

theorem info (h : Engine.Alike clock R e e') (line : String) :
    Program.Alike clock R (OnValue fun _ => True) (e.info line).run (e'.info line).run :=
  (h.log line).bind fun _ _ => .done trivial

theorem current (h : Engine.Alike clock R e e') :
    Program.Alike clock R (OnValue fun c => c.dirty = false) e.current.run e'.current.run :=
  Program.Alike.andThen (ofEngine h.version) fun _ hclean => .done hclean

theorem migrate (h : Engine.Alike clock R e e') (desired : Nat) (announced confirmed : String) :
    Program.Alike clock R (OnValue fun _ => True)
      (do
        e.info announced
        Attempt.ofEngine (e.migrateTo desired)
        e.info confirmed : Attempt I Unit).run
      (do
        e'.info announced
        Attempt.ofEngine (e'.migrateTo desired)
        e'.info confirmed : Attempt J Unit).run := by
  have hmoved : Program.Alike clock R (OnValue fun _ => True) (e.migrateTo desired)
      (e'.migrateTo desired) := by
    refine (h.migrateTo desired).mono ?_
    rintro (err | a) _ <;> trivial
  refine Program.Alike.andThen (h.info announced) fun _ _ => ?_
  exact Program.Alike.andThen (ofEngine hmoved) fun _ _ => h.info confirmed

theorem branch {c : Prop} [Decidable c] {a b : Attempt I Unit} {a' b' : Attempt J Unit}
    (hthen : c → Program.Alike clock R (OnValue fun _ => True) a.run a'.run)
    (helse : ¬c → Program.Alike clock R (OnValue fun _ => True) b.run b'.run) :
    Program.Alike clock R (OnValue fun _ => True) (if c then a else b).run
      (if c then a' else b').run := by
  by_cases h : c
  · rw [if_pos h, if_pos h]
    exact hthen h
  · rw [if_neg h, if_neg h]
    exact helse h

theorem perform (h : Engine.Alike clock R e e') (kind : Transition) (desired : Nat) :
    Program.Alike clock R (OnValue fun _ => True) (e.perform kind desired).run
      (e'.perform kind desired).run := by
  cases kind with
  | assert =>
    simp only [Engine.perform, Engine.assertVersion_eq]
    refine Program.Alike.andThen h.current fun c _ => ?_
    refine branch (fun _ => throws _) fun _ => ?_
    refine branch (fun _ => throws _) fun _ => ?_
    exact branch (fun _ => throws _) fun _ => h.info _
  | apply =>
    simp only [Engine.perform, Engine.applyVersion_eq]
    refine Program.Alike.andThen h.current fun c _ => ?_
    refine branch (fun _ => throws _) fun _ => ?_
    refine branch (fun _ => h.info _) fun _ => ?_
    exact branch (fun _ => throws _) fun _ => h.migrate desired _ _
  | rollback =>
    simp only [Engine.perform, Engine.rollbackVersion_eq]
    refine Program.Alike.andThen h.current fun c hclean => ?_
    have hskip : Program.Alike clock R (OnValue fun _ => True) (pure () : Attempt I Unit).run
        (pure () : Attempt J Unit).run := .done trivial
    refine Program.Alike.andThen (branch (fun hdirty => ?_) fun _ => hskip) fun _ _ => ?_
    · rw [hclean] at hdirty
      cases hdirty
    · unfold Engine.lower
      refine branch (fun _ => h.info _) fun _ => ?_
      exact branch (fun _ => throws _) fun _ => h.migrate desired _ _

/-- **An operation comes to the same** on both engines, in the background. -/
theorem operation (h : Engine.Alike clock R e e') (kind : Transition) (desired : Nat) :
    Program.Alike clock R (OnValue fun _ => True) (e.operation kind desired none)
      (e'.operation kind desired none) :=
  (h.perform kind desired).ensuring h.restoreLockTimeout

end Alike

end Engine

namespace Schedule

/-! ## Between two calls -/

variable {x : Schedule I σ} {y : Schedule J τ}

/-- Nobody has the engine and nobody waits for it. -/
structure AtRest (x : Schedule I σ) : Prop where
  holder : x.holder = none
  line : x.line = []
  closing : x.closing = none
  past : ∀ e ∈ x.endings, e.serial < x.next

omit [Machine I σ] in
theorem atRest_start (m : σ) (now : Instant) :
    ({ engine := m, now := now } : Schedule I σ).AtRest where
  holder := rfl
  line := rfl
  closing := rfl
  past := nofun

theorem AtRest.rest (h : x.AtRest) (pause : Option Duration) :
    (x.rest pause).AtRest ∧ (x.rest pause).engine = x.engine ∧ x.now ≤ (x.rest pause).now := by
  cases pause with
  | none => exact ⟨h, rfl, Nat.le_refl _⟩
  | some d =>
    have hadvance : x.advance (some (x.now + d + 1)) = { x with line := [] } := by
      rw [advance_eq_work _ h.closing, work_free _ h.holder, h.line]
      rfl
    have hrest : x.rest (some d) = { x with line := [], now := max x.now (x.now + d) } := by
      change { x.advance (some (x.now + d + 1)) with now := max x.now (x.now + d) } = _
      rw [hadvance]
    rw [hrest]
    exact ⟨⟨h.holder, rfl, h.closing, h.past⟩, rfl, Nat.le_max_left _ _⟩

/-- A program that ends before the bound of its run. -/
theorem run_inTime {bound : Option Instant} (p : Program I α) {now : Instant} {m : σ}
    (h : ∀ b, bound = some b → (p.finish now m).now < b) :
    p.run none bound now m =
      ⟨.ended (p.finish now m).outcome, (p.finish now m).machine, (p.finish now m).now⟩ := by
  cases bound with
  | none => exact p.run_eq_finish now m
  | some b =>
    obtain ⟨-, hpart⟩ := p.run_resumed none b now m
    rw [Program.run_eq_finish] at hpart
    rcases hpart with hwhole | ⟨-, hlate⟩
    · exact hwhole
    · exact absurd (h b rfl) (Nat.not_lt.2 hlate)

/-- **A call whose context outlives its body is that body, run to the end.** -/
theorem AtRest.perform_inTime (h : x.AtRest) (e : Engine I) (kind : Transition) (desired : Nat)
    (deadline expiry : Option Instant) :
    let ended := (e.operation kind desired (deadline.map (· - x.now))).finish x.now x.engine
    (∀ t, expiry = some t → ended.now < t) →
      (x.perform e kind desired deadline expiry).1 = some ended.outcome.toResult ∧
        (x.perform e kind desired deadline expiry).2.AtRest ∧
          (x.perform e kind desired deadline expiry).2.engine = ended.machine ∧
            (x.perform e kind desired deadline expiry).2.now = ended.now := by
  intro ended hlives
  have hadvance : (x.issue deadline (e.operation kind desired)).2.advance (expiry.map (· + 1)) =
      { x with
        engine := ended.machine
        line := []
        armed := some x.next
        endings := x.endings ++ [⟨x.next, ended.outcome, ended.now⟩]
        next := x.next + 1 } := by
    have hclosing : (x.issue deadline (e.operation kind desired)).2.closing = none := h.closing
    have hholder : (x.issue deadline (e.operation kind desired)).2.holder = none := h.holder
    have hbound : ∀ b, expiry.map (· + 1) = some b → ended.now < b := by
      intro b hb
      obtain ⟨t, ht, rfl⟩ := Option.map_eq_some_iff.1 hb
      exact Nat.lt_succ_of_lt (hlives t ht)
    rw [advance_eq_work _ hclosing, work_free _ hholder]
    simp only [issue, h.line, List.nil_append, lend, Body.start]
    rw [run_inTime _ hbound]
  have hending :
      ((x.issue deadline (e.operation kind desired)).2.advance (expiry.map (· + 1))).endingOf?
      x.next =
      some ⟨x.next, ended.outcome, ended.now⟩ := by
    rw [hadvance]
    simp only [endingOf?]
    rw [List.find?_append, List.find?_eq_none.2]
    · simp
    · intro old hold
      have := h.past old hold
      simp only [beq_iff_eq]
      omega
  have hawaited : expiry.any (· ≤ x.now) = false := by
    cases expiry with
    | none => rfl
    | some t =>
      have hlater : x.now < t := Nat.lt_of_le_of_lt (Program.le_finish _ _ _) (hlives t rfl)
      simpa using hlater
  have hperform : x.perform e kind desired deadline expiry =
      (some ended.outcome.toResult,
        { (x.issue deadline (e.operation kind desired)).2.advance (expiry.map (· + 1)) with
          now := ended.now }) := by
    have hserial : (x.issue deadline (e.operation kind desired)).1 = x.next := rfl
    have hnow : (x.issue deadline (e.operation kind desired)).2.now = x.now := rfl
    simp only [Schedule.perform, await, hserial, hnow, hawaited, hending, Bool.false_eq_true,
      if_false, Option.map_some, envelope_inTime hlives]
  rw [hperform, hadvance]
  refine ⟨rfl, ⟨h.holder, rfl, h.closing, ?_⟩, rfl, rfl⟩
  intro e he
  simp only [List.mem_append, List.mem_singleton] at he
  rcases he with he | rfl
  · exact Nat.lt_succ_of_lt (h.past e he)
  · exact Nat.lt_succ_self _

/-- A call in the background is its body, run to the end. -/
theorem AtRest.perform (h : x.AtRest) (e : Engine I) (kind : Transition) (desired : Nat) :
    let ended := (e.operation kind desired none).finish x.now x.engine
    (x.perform e kind desired none none).1 = some ended.outcome.toResult ∧
      (x.perform e kind desired none none).2.AtRest ∧
        (x.perform e kind desired none none).2.engine = ended.machine ∧
          (x.perform e kind desired none none).2.now = ended.now :=
  h.perform_inTime e kind desired none none nofun

/-! ## What there is to see -/

/-- What can be seen of a call: what its caller is told, the version that the engine tells
afterwards, and how many steps it has run so far. -/
structure Sight where
  told : Option (Except Failure Unit)
  version : Outcome (Except EngineError (Option SchemaVersion))
  steps : Nat

/-- What can be seen of a list of calls; `steps` counts the steps that a machine has run. -/
def sights (e : Engine I) (steps : σ → Nat) : List Errand → Schedule I σ → List Sight
  | [], _ => []
  | errand :: errands, x =>
    let (told, x) :=
      (x.rest errand.pause).perform e errand.kind errand.desired errand.deadline errand.expiry
    ⟨told, (e.version.finish x.now x.engine).outcome, steps x.engine⟩ :: x.sights e steps errands

theorem AtRest.le_follow (e : Engine I) (errands : List Errand) : ∀ {x : Schedule I σ}, x.AtRest →
    x.now ≤ (x.follow e (errands.map (·.inBackground))).2.now := by
  induction errands with
  | nil => exact fun _ => Nat.le_refl _
  | cons errand errands ih =>
    intro x h
    obtain ⟨hrest, -, hlater⟩ := h.rest errand.pause
    obtain ⟨-, hafter, -, hnow⟩ := hrest.perform e errand.kind errand.desired
    have hbody :=
      Program.le_finish (e.operation errand.kind errand.desired none) (x.rest errand.pause).now
      (x.rest errand.pause).engine
    rw [← hnow] at hbody
    exact Nat.le_trans hlater (Nat.le_trans hbody (ih hafter))

/-- **Engines that come to the same show the same**, call by call, to callers that never leave. -/
theorem sights_alike {clock : Program.Clock} {R : σ → τ → Prop} {e : Engine I} {e' : Engine J}
    {steps : σ → Nat} {steps' : τ → Nat} (h : Engine.Alike clock R e e')
    (hversion : ∀ m n, R m n → ∀ t u,
      (e.version.finish t m).outcome = (e'.version.finish u n).outcome)
    (hsteps : ∀ m n, R m n → steps m = steps' n) (errands : List Errand) :
    ∀ {x : Schedule I σ} {y : Schedule J τ}, x.AtRest → y.AtRest → R x.engine y.engine →
      (y.follow e' (errands.map (·.inBackground))).2.now < clock.limit →
      x.sights e steps (errands.map (·.inBackground)) = y.sights e' steps'
        (errands.map (·.inBackground)) := by
  induction errands with
  | nil => exact fun _ _ _ _ => rfl
  | cons errand errands ih =>
    intro x y hx hy hR hlimit
    obtain ⟨hx', hxengine, -⟩ := hx.rest errand.pause
    obtain ⟨hy', hyengine, -⟩ := hy.rest errand.pause
    obtain ⟨htold, hafter, hengine, -⟩ := hx'.perform e errand.kind errand.desired
    obtain ⟨htold', hafter', hengine', hnow'⟩ := hy'.perform e' errand.kind errand.desired
    have hearly : ((e'.operation errand.kind errand.desired none).finish (y.rest errand.pause).now
        (y.rest errand.pause).engine).now < clock.limit := by
      rw [← hnow']
      exact Nat.lt_of_le_of_lt (hafter'.le_follow e' errands) hlimit
    have hrelated : R (x.rest errand.pause).engine (y.rest errand.pause).engine := by
      rwa [hxengine, hyengine]
    obtain ⟨houtcome, -, hmachines⟩ := (h.operation errand.kind errand.desired).holds _ _ hrelated
      (x.rest errand.pause).now (y.rest errand.pause).now hearly
    rw [← hengine, ← hengine'] at hmachines
    have hrest := ih hafter hafter' hmachines hlimit
    have hanswer : ((x.rest errand.pause).perform e errand.kind errand.desired none none).1 =
        ((y.rest errand.pause).perform e' errand.kind errand.desired none none).1 := by
      rw [htold, htold', houtcome]
    simp only [List.map_cons, sights, Errand.inBackground]
    rw [hanswer, hversion _ _ hmachines, hsteps _ _ hmachines]
    exact congrArg (List.cons _) hrest

/-- Where no request takes time, calls without rests take none. -/
theorem follow_stands {clock : Program.Clock} {R : σ → τ → Prop} {e : Engine I} {e' : Engine J}
    (h : Engine.Alike clock R e e') (hstands : clock.stands) (errands : List Errand)
    (hpauses : ∀ errand ∈ errands, errand.pause = none) : ∀ {m : σ} {y : Schedule J τ}, y.AtRest →
      R m y.engine → y.now < clock.limit →
      (y.follow e' (errands.map (·.inBackground))).2.now = y.now := by
  induction errands with
  | nil => exact fun _ _ _ => rfl
  | cons errand errands ih =>
    intro m y hy hR hlimit
    obtain ⟨-, hafter, hengine, hnow⟩ := hy.perform e' errand.kind errand.desired
    have hoperation := h.operation errand.kind errand.desired
    have htime := hoperation.stands hstands m y.engine hR y.now hlimit
    obtain ⟨-, -, hmachines⟩ := hoperation.holds m y.engine hR y.now y.now (by rwa [htime])
    rw [← hengine] at hmachines
    rw [← hnow] at htime
    have hrest :=
      ih (fun errand' hmem => hpauses errand' (List.mem_cons_of_mem errand hmem)) hafter hmachines
      (by rwa [htime])
    rw [htime] at hrest
    have hpause : y.rest errand.inBackground.pause = y := by
      rw [Errand.inBackground, hpauses errand List.mem_cons_self]
      rfl
    simp only [List.map_cons, follow, hpause]
    exact hrest

end Schedule

end Stairway
