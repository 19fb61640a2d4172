import Stairway.Memory.Engine
import Stairway.Proofs.Controller.Operations

/-!
# What a program does to a store

A program over the engine in memory that waits only by sleeping (`Program.Steady`) has one effect on
a store, whenever it is run and however its run is cut: `evaluate`. `keeping` is the protocol of a
store that answers as a store does, so what a program obeys is true of its evaluation
(`obeys_evaluate`), and a steady program obeys its own evaluation (`Steady.obeys`). It is put
together like the program (`evaluate_bind`, `evaluate_andThen`, `evaluate_ensuring`).

Lock timeouts are recorded by a store and read by nobody: `untimed` forgets them, and evaluation on
two stores that differ in nothing else ends alike (`evaluate_alike`).
-/

namespace Stairway

/-! ## Steady programs -/

/-- A program that never asks whether its context is done. -/
def Program.Steady {I : Interface} {α : Type} : Program I α → Prop
  | .done _ => True
  | .crash => True
  | .pause _ next => next.Steady
  | .race _ _ => False
  | .ask _ next => ∀ a, (next a).Steady

namespace Program.Steady

variable {I : Interface} {α β : Type}

theorem bind {p : Program I α} {f : α → Program I β} (hp : p.Steady) (hf : ∀ a, (f a).Steady) :
    (p.bind f).Steady := by
  induction p with
  | done a => exact hf a
  | crash => exact hp
  | pause d next ih => exact ih hp
  | race d next ih => exact hp.elim
  | ask r next ih => exact fun a => ih a (hp a)

theorem ensuring {p : Program I α} {cleanup : Program I Unit} (hp : p.Steady)
    (hc : cleanup.Steady) :
    (p.ensuring cleanup).Steady := by
  induction p with
  | done a => exact hc.bind fun _ => trivial
  | crash => exact hc.bind fun _ => trivial
  | pause d next ih => exact ih hp
  | race d next ih => exact hp.elim
  | ask r next ih => exact fun a => ih a (hp a)

theorem andThen {ε : Type} {x : ExceptT ε (Program I) α} {f : α → ExceptT ε (Program I) β}
    (hx : x.run.Steady) (hf : ∀ a, (f a).run.Steady) : (x >>= f).run.Steady := by
  refine hx.bind ?_
  rintro (e | a)
  · trivial
  · exact hf a

end Program.Steady

/-- An engine whose programs are all steady. -/
structure Engine.Steady {I : Interface} (e : Engine I) : Prop where
  version : e.version.Steady
  migrateTo : ∀ target, (e.migrateTo target).Steady
  force : ∀ v, (e.force v).Steady
  defaultLockTimeout : e.defaultLockTimeout.Steady
  setLockTimeout : ∀ d, (e.setLockTimeout d).Steady
  log : ∀ line, (e.log line).Steady

namespace Engine.Steady

variable {I : Interface} {e : Engine I}

theorem ofEngine {α : Type} {p : Program I (Except EngineError α)} (hp : p.Steady) :
    (Attempt.ofEngine p).run.Steady :=
  hp.bind fun _ => trivial

theorem info (h : e.Steady) (line : String) : (e.info line).run.Steady :=
  (h.log line).bind fun _ => trivial

theorem current (h : e.Steady) : e.current.run.Steady :=
  (ofEngine h.version).andThen fun _ => trivial

theorem migrate (h : e.Steady) (desired : Nat) (announced confirmed : String) :
    (do
      e.info announced
      Attempt.ofEngine (e.migrateTo desired)
      e.info confirmed : Attempt I Unit).run.Steady :=
  (h.info announced).andThen fun _ =>
    (ofEngine (h.migrateTo desired)).andThen fun _ => h.info confirmed

theorem perform (h : e.Steady) (kind : Transition) (desired : Nat) :
    (e.perform kind desired).run.Steady := by
  cases kind with
  | assert =>
    simp only [Engine.perform, Engine.assertVersion_eq]
    refine h.current.andThen fun c => ?_
    repeat' split
    · trivial
    · trivial
    · trivial
    · exact h.info _
  | apply =>
    simp only [Engine.perform, Engine.applyVersion_eq]
    refine h.current.andThen fun c => ?_
    repeat' split
    · trivial
    · exact h.info _
    · trivial
    · exact h.migrate desired _ _
  | rollback =>
    simp only [Engine.perform, Engine.rollbackVersion_eq]
    refine h.current.andThen fun c => Program.Steady.andThen ?_ fun _ => ?_
    · split
      · rw [Engine.repair_eq]
        refine (h.info _).andThen fun _ => ?_
        split
        · trivial
        · exact ofEngine (h.force _)
      · trivial
    · unfold Engine.lower
      repeat' split
      · exact h.info _
      · trivial
      · exact h.migrate desired _ _

theorem operation (h : e.Steady) (kind : Transition) (desired : Nat) (remaining : Option Duration) :
    (e.operation kind desired remaining).Steady := by
  have hbody : (Program.ensuring (e.perform kind desired).run e.restoreLockTimeout).Steady :=
    (h.perform kind desired).ensuring (h.defaultLockTimeout.bind fun d => h.setLockTimeout d)
  cases remaining with
  | none => exact hbody
  | some d => exact (h.setLockTimeout d).bind fun _ => hbody

end Engine.Steady

namespace Memory

/-! ## Evaluation -/

/-- What a program comes to on a store that nobody else uses. -/
def evaluate {α : Type} : Program interface α → Store → Outcome α × Store
  | .done a, s => (.finished a, s)
  | .crash, s => (.crashed, s)
  | .pause _ next, s => evaluate next s
  | .race _ next, s => evaluate (next false) s
  | .ask r next, s => evaluate (next (s.serve r).1) (s.serve r).2

/-- A store may be asked anything, and answers as a store does. -/
def keeping : Protocol interface Store where
  allows _ _ := True
  leads s r a t := (s.serve r).1 = a ∧ (s.serve r).2 = t

theorem keeping_governs : keeping.Governs fun (s t : Store) => s = t where
  arrive := by
    rintro s _ r now rfl -
    rfl
  answer := by
    rintro s _ r now rfl -
    exact ⟨_, ⟨rfl, rfl⟩, rfl⟩

variable {α : Type} {Q : Outcome α → Store → Prop}

/-- What a program obeys is true of its evaluation. -/
theorem obeys_evaluate {p : Program interface α} : ∀ {s : Store}, p.Obeys keeping Q s →
    Q (evaluate p s).1 (evaluate p s).2 := by
  induction p with
  | done a => exact id
  | crash => exact id
  | pause d next ih => exact ih
  | race d next ih => exact fun h => ih false (h false)
  | ask r next ih => exact fun h => ih _ (h.2 _ _ ⟨rfl, rfl⟩)

/-- A steady program has no effect but that of its evaluation. -/
theorem steady_obeys {p : Program interface α} (hp : p.Steady) : ∀ s : Store,
    p.Obeys keeping (fun o t => (o, t) = evaluate p s) s := by
  induction p with
  | done a => exact fun s => rfl
  | crash => exact fun s => rfl
  | pause d next ih => exact ih hp
  | race d next ih => exact hp.elim
  | ask r next ih =>
    refine fun s => ⟨trivial, ?_⟩
    rintro _ _ ⟨rfl, rfl⟩
    exact ih _ (hp _) _

/-! ## Putting evaluations together -/

theorem evaluate_bind {α β : Type} (p : Program interface α)
    (f : α → Program interface β) : ∀ s : Store,
    evaluate (p.bind f) s =
      match (evaluate p s).1 with
      | .finished a => evaluate (f a) (evaluate p s).2
      | .crashed => (.crashed, (evaluate p s).2) := by
  induction p with
  | done a => exact fun s => rfl
  | crash => exact fun s => rfl
  | pause d next ih => exact ih
  | race d next ih => exact ih false
  | ask r next ih => exact fun s => ih _ _

section

variable {ε α β : Type} {x : ExceptT ε (Program interface) α}
  {f : α → ExceptT ε (Program interface) β} {s t : Store}

/-- What follows an attempt that succeeds. -/
theorem evaluate_andThen {a : α} (h : evaluate x.run s = (.finished (.ok a), t)) :
    evaluate (x >>= f).run s = evaluate (f a).run t := by
  refine (evaluate_bind x.run _ s).trans ?_
  rw [h]
  rfl

theorem evaluate_andThen_error {e : ε} (h : evaluate x.run s = (.finished (.error e), t)) :
    evaluate (x >>= f).run s = (.finished (.error e), t) := by
  refine (evaluate_bind x.run _ s).trans ?_
  rw [h]
  rfl

end

/-- A cleanup that never breaks off. -/
theorem evaluate_ensuring {α : Type} {cleanup : Program interface Unit} {after : Store → Store}
    (hcleanup : ∀ t, evaluate cleanup t = (.finished (), after t))
    (p : Program interface α) : ∀ s : Store,
    evaluate (p.ensuring cleanup) s = ((evaluate p s).1, after (evaluate p s).2) := by
  have hlast : ∀ (q : Program interface α) (s : Store),
      evaluate (cleanup.bind fun _ => q) s = evaluate q (after s) := by
    intro q s
    rw [evaluate_bind, hcleanup]
  induction p with
  | done a => exact hlast (.done a)
  | crash => exact hlast .crash
  | pause d next ih => exact ih
  | race d next ih => exact ih false
  | ask r next ih => exact fun s => ih _ _

/-! ## Lock timeouts -/

/-- A store without the lock timeouts it was told. -/
def Store.untimed (s : Store) : Store := { s with lockTimeout := 0, lockTimeouts := [] }

theorem Store.serve_untimed (s : Store) (r : Request) :
    (s.untimed.serve r).1 = (s.serve r).1 ∧ (s.untimed.serve r).2.untimed =
      (s.serve r).2.untimed := by
  cases r with
  | fault p => exact ⟨rfl, rfl⟩
  | version =>
    cases hc : s.closed <;> simp [Store.serve, Store.record, Store.untimed, hc]
  | startMigration target =>
    cases hm : s.migrateError with
    | none => by_cases hlt : s.available < target <;>
        simp [Store.serve, Store.record, Store.untimed, hm, hlt]
    | some text => simp [Store.serve, Store.record, Store.untimed, hm]
  | takeStop => exact ⟨rfl, rfl⟩
  | beginStep next => exact ⟨rfl, rfl⟩
  | endStep next => exact ⟨rfl, rfl⟩
  | force v => exact ⟨rfl, rfl⟩
  | close => exact ⟨rfl, rfl⟩
  | defaultLockTimeout => exact ⟨rfl, rfl⟩
  | setLockTimeout d => exact ⟨rfl, rfl⟩
  | requestStop => exact ⟨rfl, rfl⟩
  | log line => exact ⟨rfl, rfl⟩

/-- **Lock timeouts are read by nobody**: on stores that differ in nothing else a program comes to
the same. -/
theorem evaluate_alike {p : Program interface α} : ∀ {s t : Store}, s.untimed = t.untimed →
    (evaluate p s).1 = (evaluate p t).1 ∧ (evaluate p s).2.untimed = (evaluate p t).2.untimed := by
  induction p with
  | done a => exact fun h => ⟨rfl, h⟩
  | crash => exact fun h => ⟨rfl, h⟩
  | pause d next ih => exact ih
  | race d next ih => exact ih false
  | ask r next ih =>
    intro s t h
    obtain ⟨hs, hs'⟩ := s.serve_untimed r
    obtain ⟨ht, ht'⟩ := t.serve_untimed r
    rw [h] at hs hs'
    simp only [evaluate]
    rw [← hs, ← ht]
    exact ih _ (hs'.symm.trans ht')

end Memory

end Stairway
