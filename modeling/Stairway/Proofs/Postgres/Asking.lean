import Stairway.Postgres.Engine
import Stairway.Proofs.Program.Protocol

/-!
# The engine's lowest programs under any protocol

How a program of the engine asks, goes on with an answer, sends a statement and takes the lock,
whatever the protocol is that it shall keep to. Sending is cut in two: first the rollback that is
owed (`payDebt`), then the statement.

Of the lock only three kinds of states are told apart: those in which a session waits for it, those
in which it has just been granted, and those in which it has given up. `Entrance` says what asking
once does to them, and `obeys_locked` what follows for a part that runs between taking the lock and
giving it back.
-/

namespace Stairway.Postgres

open Program (ending onSuccess obeys_andThen)

variable {S : Type} {P : Protocol interface S} {s : S} {α : Type} {failed broken : S → Prop}

/-! ## Answers -/

theorem obeys_get {ε : Type} {wrap : ε → DatabaseError} {x : Except ε α} {ok : α → S → Prop}
    (hok : ∀ a, x = .ok a → ok a s) (hfailed : ∀ e, x = .error e → failed s) :
    (Work.get wrap x).run.Obeys P (ending ok failed broken) s := by
  cases x with
  | ok a => exact hok a rfl
  | error e => exact hfailed e rfl

/-- What holds after an attempt, whose end is a value. -/
def attempted (ok : α → S → Prop) (failed : S → Prop) : Except DatabaseError α → S → Prop
  | .ok a, t => ok a t
  | .error _, t => failed t

theorem obeys_attempt {w : Work α} {ok : α → S → Prop}
    (h : w.run.Obeys P (ending ok failed broken) s) {f : S → Prop} :
    w.attempt.run.Obeys P (ending (attempted ok failed) f broken) s := by
  refine (Program.obeys_bind (p := w.run)).2 (h.mono ?_)
  rintro ((e | a) | _) t ht <;> exact ht

theorem obeys_inEngineWords {w : Work α} {ok : α → S → Prop}
    (h : w.run.Obeys P (ending ok failed broken) s) :
    (Plant.inEngineWords w).Obeys P (ending ok failed broken) s := by
  refine (Program.obeys_bind (p := w.run)).2 (h.mono ?_)
  rintro ((e | a) | _) t ht <;> exact ht

/-! ## Sending -/

/-- Asks for the rollback that is owed, if one is. -/
def payDebt : Work Unit := do
  if ← Work.ask .takeOwedRollback then
    Work.get .connection (← Work.ask (.statement .rollback))

instance {I : Interface} : LawfulMonad (Program I) :=
  LawfulMonad.mk' (Program I) (fun p => p.bind_done) (fun _ _ => rfl) fun p f g => p.bind_assoc f g

theorem send_eq (q : Statement) :
    send q = payDebt >>= fun _ => Work.ask (.statement q) >>= fun a => Work.get .connection a := by
  unfold send payDebt
  rw [bind_assoc]
  congr
  funext owed
  cases owed <;> rfl

/-! ## The lock -/

/-- How the lock is asked for: what a try and the requests around it do to a session that waits. -/
structure Entrance (P : Protocol interface S) (key : Int)
    (Waiting Granted Failed : S → Prop) : Prop where
  tryLock : ∀ {s}, Waiting s → (send (.tryLock key)).run.Obeys P
    (onSuccess (fun gotIt t => if gotIt = true then Granted t else Waiting t) Failed) s
  now : ∀ {s}, Waiting s → (Work.ask .now).run.Obeys P (onSuccess (fun _ t => Waiting t) Failed) s
  lockTimeout : ∀ {s}, Waiting s →
    (Work.ask .lockTimeout).run.Obeys P (onSuccess (fun _ t => Waiting t) Failed) s
  giveUp : ∀ {s}, Waiting s → Failed s

section Lock

variable {key : Int} {Waiting Granted Failed L : S → Prop}

/-- The lock is asked for until it is there or the time is over. -/
theorem Entrance.poll (h : Entrance P key Waiting Granted Failed) {timeout : Duration}
    {deadline known : Instant} (hs : Waiting s) :
    (poll key timeout deadline known).run.Obeys P (onSuccess (fun _ t => Granted t) Failed) s := by
  -- By induction on the time that is left: a try in vain brings the deadline closer.
  induction hn : deadline - known using Nat.strongRecOn generalizing known s with
  | _ n ih =>
    subst hn
    rw [Postgres.poll]
    refine obeys_andThen (h.tryLock hs) ?_
    rintro (_ | _) t ht
    · refine obeys_andThen (h.now ht) ?_
      rintro now u hu
      simp only
      split
      · exact h.giveUp hu
      · next hearly => exact ih _ (pollDelay_lt hearly) hu rfl
    · exact ht

theorem Entrance.acquire (h : Entrance P key Waiting Granted Failed) {timeout : Duration}
    (hs : Waiting s) :
    (acquire key timeout).run.Obeys P (onSuccess (fun _ t => Granted t) Failed) s := by
  refine obeys_andThen (h.now hs) ?_
  rintro start t ht
  split
  · exact h.poll ht
  · exact h.giveUp ht

/-- **What is done under the lock**: a part that starts where the lock has been granted, and is
followed by giving the lock back, however it ends. -/
theorem Entrance.locked (h : Entrance P key Waiting Granted Failed) {body : Work α}
    {R Back : α → S → Prop} (hs : Waiting s)
    (hbody : ∀ {t}, Granted t → body.run.Obeys P (ending R L Failed) t)
    (hdone : ∀ {a t}, R a t → (release key).run.Obeys P (onSuccess (fun _ u => Back a u) Failed) t)
    (hleft : ∀ {t}, L t → (release key).run.Obeys P (onSuccess (fun _ u => Failed u) Failed) t) :
    (locked key body).run.Obeys P (onSuccess Back Failed) s := by
  refine obeys_andThen (h.lockTimeout hs) ?_
  rintro timeout t ht
  refine obeys_andThen (h.acquire ht) ?_
  rintro _ t ht
  refine obeys_andThen (obeys_attempt (hbody ht)) ?_
  rintro (e | a) t ht
  · refine obeys_andThen (obeys_attempt (hleft ht)) ?_
    rintro (e' | _) u hu <;> exact hu
  · refine obeys_andThen (obeys_attempt (hdone ht)) ?_
    rintro (e' | _) u hu <;> exact hu

end Lock

end Stairway.Postgres
