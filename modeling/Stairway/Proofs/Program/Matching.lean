import Stairway.Proofs.Program.Bounds
import Stairway.Proofs.Program.Finish
import Stairway.Retry

/-!
# Programs that cannot be told apart

Two programs match over a relation of machines if, started at one instant on related machines and
under contexts that are done at one instant, they come to the same end at the same instant and leave
related machines. Matching is put together along a program (`Matches.bind`, `Matches.race`), and so
it goes through the loop of retries (`Matches.retrying`).

Unlike `Alike` it looks at the clock, and at contexts that run out: it is for what is seen from
outside, and when.
-/

namespace Stairway.Program

variable {I J : Interface} {σ τ α β : Type} [Machine I σ] [Machine J τ]

/-- A request is waited for, whenever the context is done. -/
theorem run_request (r : I.Request) (expiry : Option Instant) (now : Instant) (m : σ) :
    (request r).run expiry none now m =
      ⟨.ended (.finished (waitFor r now m).1), (waitFor r now m).2.1, (waitFor r now m).2.2⟩ := by
  rcases h : Machine.arrive r now m with ⟨_ | d, m'⟩
  · rw [request, run_ask_now h]
    simp only [run, waitFor, h]
    rfl
  · rw [request, run_ask_later h, if_pos (isBefore_none _)]
    simp only [run, waitFor, h]
    rfl

/-- Two programs that come to the same end at the same instant, on machines that stay related. -/
def Matches (R : σ → τ → Prop) (p : Program I α) (q : Program J α) : Prop :=
  ∀ expiry now m n, R m n → ∃ o m' n' t, p.run expiry none now m = ⟨.ended o, m', t⟩ ∧
    q.run expiry none now n = ⟨.ended o, n', t⟩ ∧ R m' n'

/-- Two answers that come to the same, at one instant, from machines that stay related. -/
structure Tally (R : σ → τ → Prop) (x : α × σ × Instant) (y : α × τ × Instant) : Prop where
  answer : x.1 = y.1
  instant : x.2.2 = y.2.2
  machine : R x.2.1 y.2.1

namespace Matches

variable {R : σ → τ → Prop} {p : Program I α} {q : Program J α}

theorem done (a : α) : Matches R (.done a : Program I α) (.done a : Program J α) :=
  fun _ now m n hR => ⟨.finished a, m, n, now, rfl, rfl, hR⟩

/-- Programs that end wherever they are started match by their ends. -/
theorem of_ends {x : Instant → σ → α × σ × Instant} {y : Instant → τ → α × τ × Instant}
    (hp : ∀ expiry now m,
      p.run expiry none now m = ⟨.ended (.finished (x now m).1), (x now m).2.1, (x now m).2.2⟩)
    (hq : ∀ expiry now n,
      q.run expiry none now n = ⟨.ended (.finished (y now n).1), (y now n).2.1, (y now n).2.2⟩)
    (h : ∀ now m n, R m n → Tally R (x now m) (y now n)) : Matches R p q := by
  intro expiry now m n hR
  have hends := h now m n hR
  exact ⟨_, _, _, _, hp expiry now m, by rw [hq, hends.answer, hends.instant], hends.machine⟩

theorem race (d : Duration) {f : Bool → Program I α} {g : Bool → Program J α}
    (h : ∀ b, Matches R (f b) (g b)) :
    Matches R (.race d f) (.race d g) := by
  intro expiry now m n hR
  simp only [run_race, isBefore_none, Bool.or_true, if_true]
  exact h _ expiry _ m n hR

theorem bind {f : α → Program I β} {g : α → Program J β} (h : Matches R p q)
    (hfg : ∀ a, Matches R (f a) (g a)) :
    Matches R (p.bind f) (q.bind g) := by
  intro expiry now m n hR
  obtain ⟨o, m', n', t, hp, hq, hR'⟩ := h expiry now m n hR
  rw [run_bind_eq, run_bind_eq, hp, hq]
  cases o with
  | finished a => exact hfg a expiry t m' n' hR'
  | crashed => exact ⟨.crashed, m', n', t, rfl, rfl, hR'⟩

/-- The loop of retries, as long as each try matches. -/
theorem retryFrom {δ : Type} (policy : RetryPolicy) {attempt : Nat → Program I (Except δ α)}
    {attempt' : Nat → Program J (Except δ α)} (h : ∀ n, Matches R (attempt n) (attempt' n))
    (left : Nat) :
    ∀ n, Matches R (Stairway.retryFrom policy attempt n left)
      (Stairway.retryFrom policy attempt' n left) := by
  induction left with
  | zero => exact h
  | succ left ih =>
    intro n
    refine bind (h n) fun r => ?_
    cases r with
    | ok a => exact done _
    | error e =>
      refine race 0 fun isDone => ?_
      cases isDone with
      | true => exact done _
      | false =>
        by_cases hzero : policy.delay (n - 1) = 0
        · simp only [hzero, if_true]
          exact ih (n + 1)
        · simp only [hzero, if_false]
          refine race _ fun isDone => ?_
          cases isDone with
          | true => exact done _
          | false => exact ih (n + 1)

theorem retrying {δ : Type} (policy : RetryPolicy) {attempt : Nat → Program I (Except δ α)}
    {attempt' : Nat → Program J (Except δ α)} (h : ∀ n, Matches R (attempt n) (attempt' n)) :
    Matches R (Stairway.retrying policy attempt) (Stairway.retrying policy attempt') :=
  retryFrom policy h _ 1

end Matches

end Stairway.Program
