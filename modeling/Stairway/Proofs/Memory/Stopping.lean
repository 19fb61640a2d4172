import Stairway.Proofs.Controller.StopOnce
import Stairway.Proofs.Memory.Serial

/-!
# Stopping an engine in memory

A migration in memory looks for a stop before each step, and a step is the two moments at which the
version changes. So the engine keeps to the phases of a migration (`engine_paced`), and its slot is
one for stops (`store_hasSlot`).
-/

namespace Stairway.Memory

instance : Marked interface where
  asks
    | .requestStop => true
    | _ => false
  mark
    | .takeStop, found => some (.looked found)
    | .beginStep _, _ => some .begun
    | .endStep _, _ => some .completed
    | _, _ => none

variable {α : Type} {Q : Outcome (Except EngineError α) → List Mark → Prop} {s t : List Mark}
  {k : Nat}

/-- A fault takes the place of what is guarded, and leaves no mark. -/
theorem marking_guarded {point : Point} {p : Program interface (Except EngineError α)}
    (hfault : ∀ o, Q o t) (hp : p.Obeys (marking interface) Q t) :
    (guarded point p).Obeys (marking interface) Q t := by
  refine marking_silent (fun _ => rfl) ?_
  rintro (_ | _ | _)
  · exact hp
  · exact hfault _
  · exact hfault _

/-- A step is begun and completed. -/
theorem marking_step (delay : Duration) (next : Nat) (ht : Led s .going k t) :
    (step delay next).Obeys (marking interface) (fun _ u => Led s .ready k u) t := by
  have hbegun : Led s .running k (t ++ [.begun]) := ht.hear rfl nofun
  have hcompleted : Led s .ready k (t ++ [.begun] ++ [.completed]) := hbegun.hear rfl nofun
  refine marking_ask fun _ => ?_
  split
  · exact marking_ask fun _ => hcompleted
  · exact marking_ask fun _ => hcompleted

/-- **Steps are taken as long as no stop is found.** -/
theorem marking_stepsUpTo (delay : Duration) (target current : Nat) :
    ∀ {t : List Mark}, Led s .ready k t →
    (stepsUpTo delay target current).Obeys (marking interface) (fun _ u => ∃ φ, Led s φ k u) t := by
  -- by induction on the way to the target; each step is found ready
  induction current using stepsUpTo.induct target with
  | case1 =>
    intro t ht
    rw [stepsUpTo, dif_pos rfl]
    exact ⟨_, ht⟩
  | case2 current h ih =>
    intro t ht
    rw [stepsUpTo_eq h]
    refine marking_ask fun found => ?_
    have hlooked : Led s (if found = true then .halted else .going) k (t ++ [.looked found]) :=
      ht.hear rfl (by simp)
    split
    · next hfound => exact ⟨_, hlooked⟩
    · next hfound =>
      rw [if_neg hfound] at hlooked
      refine Program.obeys_bind.2 ((marking_step delay _ hlooked).mono ?_)
      rintro (_ | _) u hu
      · exact ih hu
      · exact ⟨_, hu⟩

theorem close_unmarked : close.Unmarked := by
  refine .ask (fun _ => rfl) fun result => .ask (fun _ => rfl) fun source => ?_
  refine .ask (fun _ => rfl) fun database t => ?_
  split <;> exact rfl

/-- **An engine in memory looks for a stop before each step.** -/
theorem engine_paced : engine.Paced where
  version t := marking_guarded (fun _ => rfl) (marking_silent (fun _ => rfl) fun _ => rfl)
  force v t := marking_guarded (fun _ => rfl) (marking_silent (fun _ => rfl) fun _ => rfl)
  migrateTo v s k t ht := by
    refine marking_guarded (fun _ => ⟨_, ht⟩) (marking_silent (fun _ => rfl) ?_)
    rintro (e | ⟨delay, current⟩)
    · exact ⟨_, ht⟩
    · exact marking_stepsUpTo delay v current ht
  close := close_unmarked
  log _ _ := marking_silent (fun _ => rfl) fun _ => rfl
  requestStop _ := marking_silent (fun _ => rfl) fun _ => rfl
  setLockTimeout _ _ := marking_silent (fun _ => rfl) fun _ => ⟨rfl, rfl⟩
  defaultLockTimeout _ := marking_silent (fun _ => rfl) fun _ => rfl

theorem store_hasSlot : HasSlot interface Store.stop where
  arrive _ _ _ := rfl
  asked r _ _ h := by
    cases r with
    | requestStop => exact ⟨rfl, rfl⟩
    | _ => cases h
  looked r _ _ found h := by
    cases r with
    | takeStop =>
      cases h
      rfl
    | _ => cases h
  other r _ s hasks hlook := by
    cases r with
    | requestStop => cases hasks
    | takeStop => cases hlook _ rfl
    | version =>
      simp only [Machine.answer, Store.serve]
      split <;> rfl
    | startMigration target =>
      simp only [Machine.answer, Store.serve]
      split
      · rfl
      · split <;> rfl
    | _ => rfl

end Stairway.Memory
