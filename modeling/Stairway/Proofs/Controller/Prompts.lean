import Stairway.Memory.Engine
import Stairway.Postgres.Session
import Stairway.Proofs.Controller.Maps

/-!
# Stop requests that come before steps

A migration looks for a stop before each step. `Prompted` is a machine to which stop requests come
from outside: `prompts` says of each look, in order, whether a stop has been requested since the
look before it. A slot keeps one request until somebody looks, so this is all that a migration can
tell of the requests, whenever they come and however many there are. A machine without prompts is
the machine itself (`unprompted`). `heed` is what becomes of a list of steps: those before the first
look that finds a request are taken.
-/

namespace Stairway

/-- Which requests look for a stop, and which one asks for it. -/
class Stoppable (I : Interface) where
  isLook : I.Request → Bool
  stop : I.Request

instance : Stoppable Memory.interface where
  isLook
    | .takeStop => true
    | _ => false
  stop := .requestStop

instance : Stoppable Postgres.interface where
  isLook
    | .takeStop => true
    | _ => false
  stop := .requestStop

/-- A machine, and what comes before the looks to be. -/
structure Prompted (σ : Type) where
  machine : σ
  prompts : List Bool := []

variable {I : Interface} [Stoppable I] {σ : Type} [Machine I σ]

/-- What a look finds: a stop has been requested if the first prompt says so. -/
def Prompted.looked (I : Interface) [Stoppable I] [Machine I σ] (now : Instant) (m : Prompted σ) :
    Prompted σ :=
  match m.prompts with
  | [] => m
  | asked :: rest =>
    ⟨if asked then (Machine.answer (I := I) Stoppable.stop now m.machine).2 else m.machine, rest⟩

instance : Machine I (Prompted σ) where
  arrive r now m :=
    let (delay, machine) := Machine.arrive r now m.machine
    (delay, { m with machine })
  answer r now m :=
    let m := if Stoppable.isLook r then m.looked I now else m
    let (a, machine) := Machine.answer r now m.machine
    (a, { m with machine })

/-- **Without prompts nothing is changed.** -/
theorem unprompted : Machine.Commutes I fun m : σ => (⟨m, []⟩ : Prompted σ) where
  arrive _ _ _ := rfl
  answer r now m := by
    simp only [Machine.answer, Prompted.looked, ite_self]

/-- What a program ensures without prompts it ensures. -/
theorem Program.Ensures.unprompted {α : Type} {clock : Clock} {p : Program I α}
    {Q : Outcome α → σ → Prop} {m : σ}
    (h : p.Ensures clock (fun o n => Q o n.machine) (⟨m, []⟩ : Prompted σ)) :
    p.Ensures clock Q m := by
  have himage : ∀ now, p.finish now (⟨m, []⟩ : Prompted σ) = (p.finish now m).map
      fun m => ⟨m, []⟩ :=
    fun now => p.finish_map Stairway.unprompted now m
  constructor
  · intro now hlimit
    have hholds := h.holds now
    rw [himage] at hholds
    exact hholds hlimit
  · intro hstands now hlimit
    have htime := h.stands hstands now hlimit
    rw [himage] at htime
    exact htime

/-! ## Steps that heed prompts -/

/-- What becomes of steps before each of which is a look: those that are taken, whether a stop was
found, and the prompts that are left. -/
def heed {α : Type} : List α → List Bool → List α × Bool × List Bool
  | [], prompts => ([], false, prompts)
  | t :: rest, prompts =>
    if prompts.headD false then ([], true, prompts.tail)
    else
      let (taken, stopped, left) := heed rest prompts.tail
      (t :: taken, stopped, left)

/-- Without prompts all steps are taken. -/
theorem heed_nil {α : Type} (steps : List α) : heed steps [] = (steps, false, []) := by
  induction steps with
  | nil => rfl
  | cons t rest ih => simp [heed, ih]

theorem heed_taken {α : Type} (steps : List α) : ∀ prompts : List Bool,
    (heed steps prompts).1 <+: steps := by
  induction steps with
  | nil => exact fun prompts => List.prefix_rfl
  | cons t rest ih =>
    intro prompts
    simp only [heed]
    split
    · exact List.nil_prefix
    · simpa using ih prompts.tail

end Stairway
