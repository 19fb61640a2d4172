import Stairway.Proofs.Program.Protocol

/-!
# Runs up to a bound

A run never goes back in time (`le_run`). One that is broken off at its bound and taken up again
comes to the same end as one that nobody broke off, and if it was broken off then that end is not
before the bound (`run_resumed`). So what a program does under a bound can be read off what it does
without one, where runs are composed like programs (`run_bind`).
-/

namespace Stairway

namespace Program

variable {I : Interface} {σ α β : Type} [Machine I σ]

/-- A wait that may be cut short ends no earlier than it begins. -/
theorem le_wake (expiry : Option Instant) (now : Instant) (d : Duration) :
    now ≤ if expiry.any (· ≤ now + d) then max now (expiry.getD now) else now + d := by
  split
  · exact Nat.le_max_left _ _
  · exact Nat.le_add_right _ _

/-- A run does not go back in time. -/
theorem le_run (expiry bound : Option Instant) (p : Program I α) :
    ∀ (now : Instant) (m : σ), now ≤ (p.run expiry bound now m).now := by
  induction p with
  | done a => exact fun now m => Nat.le_refl now
  | crash => exact fun now m => Nat.le_refl now
  | pause d next ih =>
    intro now m
    rw [run_pause]
    split
    · exact Nat.le_trans (Nat.le_add_right now d) (ih (now + d) m)
    · exact Nat.le_refl now
  | race d next ih =>
    intro now m
    have hlater := le_wake expiry now d
    rw [run_race]
    generalize (if expiry.any (· ≤ now + d) then max now (expiry.getD now) else now + d) =
      wake at hlater ⊢
    split
    · exact Nat.le_trans hlater (ih _ wake m)
    · exact Nat.le_refl now
  | ask r next ih =>
    intro now m
    rcases h : Machine.arrive r now m with ⟨_ | d, m'⟩
    · rw [run_ask_now h]
      exact ih _ now _
    · rw [run_ask_later h]
      split
      · exact Nat.le_trans (Nat.le_add_right now d) (ih _ (now + d) _)
      · exact Nat.le_refl now

/-- How far the whole program comes, where its first part has come so far. -/
def goOn (expiry : Option Instant) (reached : Progress I σ α)
    (f : α → Program I β) : Progress I σ β :=
  match reached.activity with
  | .ended (.finished a) => (f a).run expiry none reached.now reached.machine
  | .ended .crashed => ⟨.ended .crashed, reached.machine, reached.now⟩
  | .asleep wake next => ⟨.asleep wake (next.bind f), reached.machine, reached.now⟩
  | .awaiting wake r next =>
    ⟨.awaiting wake r fun a => (next a).bind f, reached.machine, reached.now⟩

theorem run_bind_eq (expiry : Option Instant) (p : Program I α) (f : α → Program I β) :
    ∀ (now : Instant) (m : σ),
    (p.bind f).run expiry none now m = goOn expiry (p.run expiry none now m) f := by
  induction p with
  | done a => exact fun now m => rfl
  | crash => exact fun now m => rfl
  | pause d next ih => exact fun now m => ih (now + d) m
  | race d next ih =>
    intro now m
    simp only [bind, run_race, isBefore_none, Bool.or_true, if_true]
    exact ih _ _ m
  | ask r next ih =>
    intro now m
    rcases harrive : Machine.arrive r now m with ⟨_ | d, m'⟩
    · rw [bind, run_ask_now harrive, run_ask_now harrive]
      exact ih _ now _
    · rw [bind, run_ask_later harrive, run_ask_later harrive, if_pos (isBefore_none _),
        if_pos (isBefore_none _)]
      exact ih _ (now + d) _

/-- What follows a program runs from where the program has ended. -/
theorem run_bind {expiry : Option Instant} {p : Program I α} {f : α → Program I β} {a : α}
    {t : Instant} {m' : σ} {now : Instant} {m : σ}
    (h : p.run expiry none now m = ⟨.ended (.finished a), m', t⟩) :
    (p.bind f).run expiry none now m = (f a).run expiry none t m' := by
  rw [run_bind_eq, h]
  rfl

/-- **A run that is broken off and taken up again.** It comes to where the run comes that nobody
breaks off; and it either has come there already, or has not ended and will not before its bound. -/
theorem run_resumed (expiry : Option Instant) (bound : Instant) (p : Program I α) :
    ∀ (now : Instant) (m : σ),
      let part := p.run expiry (some bound) now m
      let whole := p.run expiry none now m
      part.activity.run expiry none part.now part.machine = whole ∧
        (part = whole ∨ (∀ o, part.activity ≠ .ended o) ∧ bound ≤ whole.now) := by
  induction p with
  | done a => exact fun now m => ⟨rfl, Or.inl rfl⟩
  | crash => exact fun now m => ⟨rfl, Or.inl rfl⟩
  | pause d next ih =>
    intro now m
    by_cases hwake : now + d < bound
    · simpa [run_pause, hwake] using ih (now + d) m
    · have hlate := Nat.le_trans (Nat.not_lt.1 hwake) (next.le_run expiry none (now + d) m)
      simpa [run_pause, Activity.run_asleep, hwake] using Or.inr hlate
  | race d next ih =>
    intro now m
    have hlater := le_wake expiry now d
    simp only [run_race, isBefore_none, Bool.or_true, if_true]
    generalize (if expiry.any (· ≤ now + d) then max now (expiry.getD now) else now + d) =
      wake at hlater ⊢
    by_cases hwake : (d == 0 || wake.isBefore (some bound)) = true
    · simpa only [hwake, if_true] using ih _ wake m
    · have hnot : ¬ wake < bound := by
        simp only [Bool.or_eq_true, isBefore_some, not_or] at hwake
        exact hwake.2
      have hlate := Nat.le_trans (Nat.not_lt.1 hnot)
        ((next (expiry.any (· ≤ now + d))).le_run expiry none wake m)
      simpa [Activity.run_asleep, hwake, Nat.max_eq_right hlater] using Or.inr hlate
  | ask r next ih =>
    intro now m
    rcases harrive : Machine.arrive r now m with ⟨_ | d, m'⟩
    · rw [run_ask_now harrive, run_ask_now harrive]
      exact ih _ now _
    · rw [run_ask_later harrive, run_ask_later harrive, if_pos (isBefore_none _)]
      by_cases hwake : now + d < bound
      · rw [if_pos (isBefore_some.2 hwake)]
        exact ih _ (now + d) _
      · rw [if_neg (fun h => hwake (isBefore_some.1 h))]
        have hlate := Nat.le_trans (Nat.not_lt.1 hwake)
          ((next (Machine.answer r (now + d) m').1).le_run expiry none (now + d)
            (Machine.answer r (now + d) m').2)
        simpa [Activity.run_awaiting] using Or.inr hlate

end Program

end Stairway
