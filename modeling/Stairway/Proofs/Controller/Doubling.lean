import Mathlib.Algebra.Ring.Nat
import Mathlib.Order.Lattice
import Mathlib.Order.Monotone.Basic
import Stairway.Retry

/-!
# The doubling delay

The delay of a policy is meant to double from one try to the next, up to the ceiling
(`RetryPolicy.doubling`). It is not computed from the delay before, but as the initial delay times a
factor that is kept to 32 bits. A product that is too large to be shown counts as the ceiling, and
this changes nothing (`delay_checked`). A factor that is too large counts as the largest one there
is, and this is not always enough: from delay number 32 on it stands for a power of two that is
larger, so a delay that is still below the ceiling by then stays where it is
(`delay_eq_doubling_iff`). The ceiling is reached just if the largest factor takes the initial delay
there (`Reachable`).
-/

namespace Stairway.RetryPolicy

variable (p : RetryPolicy) {n : Nat}

/-- Whether the largest factor takes the initial delay to the ceiling. -/
def Reachable : Prop := p.ceiling ≤ p.initialDelay * 0xFFFFFFFF

/-- The delay that doubles from one try to the next, up to the ceiling. -/
def doubling : Nat → Duration
  | 0 => p.initialDelay
  | n + 1 => min (2 * doubling n) p.ceiling

theorem initialDelay_le_ceiling : p.initialDelay ≤ p.ceiling := Nat.le_max_right _ _

/-! ## The factor -/

theorem factor_of_lt (h : n < 32) : factor n = 2 ^ n := by rw [factor, if_pos h, Nat.one_shiftLeft]

theorem factor_of_le (h : 32 ≤ n) : factor n = 0xFFFFFFFF := if_neg (Nat.not_lt.2 h)

theorem factor_succ_of_lt (h : n < 31) : factor (n + 1) = 2 * factor n := by
  rw [factor_of_lt (by omega), factor_of_lt (by omega), Nat.pow_succ']

theorem factor_le (n : Nat) : factor n ≤ 0xFFFFFFFF := by
  rcases Nat.lt_or_ge n 32 with h | h
  · have hpow : 2 ^ n ≤ 2 ^ 31 := Nat.pow_le_pow_right Nat.two_pos (by omega)
    rw [factor_of_lt h]
    omega
  · rw [factor_of_le h]

theorem factor_le_succ (n : Nat) : factor n ≤ factor (n + 1) := by
  rcases Nat.lt_or_ge n 31 with h | h
  · rw [factor_succ_of_lt h]
    omega
  · rw [factor_of_le (n := n + 1) (by omega)]
    exact factor_le n

theorem le_factor (h : 31 ≤ n) : 2 ^ 31 ≤ factor n := by
  obtain rfl | h := Nat.eq_or_lt_of_le h
  · exact Nat.le_of_eq (factor_of_lt (by decide)).symm
  · rw [factor_of_le h]
    decide

/-! ## Products up to a ceiling -/

/-- Doubling may go on from what has been kept below the ceiling. -/
theorem min_two_mul (product ceiling : Nat) :
    min (2 * min product ceiling) ceiling = min (2 * product) ceiling := by
  omega

/-- The largest factor stands for a larger one just if there is nothing to multiply, or the ceiling
is reached. -/
theorem min_largest_iff {initial ceiling larger : Nat} (h : 2 ^ 32 ≤ larger) :
    min (initial * 0xFFFFFFFF) ceiling = min (initial * larger) ceiling ↔
      initial = 0 ∨ ceiling ≤ initial * 0xFFFFFFFF := by
  have hproduct : initial * 2 ^ 32 ≤ initial * larger := Nat.mul_le_mul_left _ h
  have hzero : initial = 0 → initial * larger = 0 := fun hinitial => by rw [hinitial, Nat.zero_mul]
  omega

/-! ## The delay -/

theorem delay_zero : p.delay 0 = p.initialDelay := by
  rw [delay, factor_of_lt (by decide), Nat.pow_zero, Nat.mul_one,
    Nat.min_eq_left p.initialDelay_le_ceiling]

theorem delay_of_le (h : 32 ≤ n) : p.delay n = min (p.initialDelay * 0xFFFFFFFF) p.ceiling := by
  rw [delay, factor_of_le h]

theorem delay_le_ceiling (n : Nat) : p.delay n ≤ p.ceiling := Nat.min_le_right _ _

theorem delay_monotone : Monotone p.delay := by
  refine monotone_nat_of_le_succ fun n => ?_
  have hproduct : p.initialDelay * factor n ≤ p.initialDelay * factor (n + 1) :=
    Nat.mul_le_mul_left _ (factor_le_succ n)
  exact le_min ((Nat.min_le_left _ _).trans hproduct) (Nat.min_le_right _ _)

/-- A product that is too large to be shown counts as the ceiling. -/
theorem delay_checked {largest : Duration} (h : p.ceiling ≤ largest) (n : Nat) :
    p.delay n = if p.initialDelay * factor n ≤ largest then
      min (p.initialDelay * factor n) p.ceiling
      else p.ceiling := by
  rw [delay]
  split
  · rfl
  · next hlarge => exact Nat.min_eq_right (h.trans (Nat.le_of_lt (Nat.lt_of_not_le hlarge)))

/-- **The delay doubles as long as the factor does**, and after that if there is nothing left to
double. -/
theorem delay_succ_iff (n : Nat) : p.delay (n + 1) = min (2 * p.delay n) p.ceiling ↔
    n < 31 ∨ p.initialDelay = 0 ∨ p.Reachable := by
  rcases Nat.lt_or_ge n 31 with h | h
  · refine iff_of_true ?_ (.inl h)
    rw [delay, factor_succ_of_lt h, Nat.mul_left_comm]
    exact (min_two_mul _ _).symm
  · have hfactor : 2 ^ 32 ≤ 2 * factor n := by
      rw [Nat.pow_succ']
      exact Nat.mul_le_mul_left 2 (le_factor h)
    have hnext : min (2 * p.delay n) p.ceiling =
        min (p.initialDelay * (2 * factor n)) p.ceiling := by
      rw [Nat.mul_left_comm]
      exact min_two_mul _ _
    rw [p.delay_of_le (Nat.succ_le_succ h), hnext, or_iff_right (Nat.not_lt.2 h)]
    exact min_largest_iff hfactor

theorem doubling_eq (n : Nat) : p.doubling n = min (p.initialDelay * 2 ^ n) p.ceiling := by
  induction n with
  | zero => rw [doubling, Nat.pow_zero, Nat.mul_one, Nat.min_eq_left p.initialDelay_le_ceiling]
  | succ n ih =>
    rw [doubling, ih, Nat.pow_succ', Nat.mul_left_comm]
    exact min_two_mul _ _

/-- **Below number 32 every delay is what it is meant to be**; the later ones are if they are zero
or at the ceiling. -/
theorem delay_eq_doubling_iff (n : Nat) : p.delay n = p.doubling n ↔ n < 32 ∨
    p.initialDelay = 0 ∨ p.Reachable := by
  rw [doubling_eq]
  rcases Nat.lt_or_ge n 32 with h | h
  · exact iff_of_true (by rw [delay, factor_of_lt h]) (.inl h)
  · rw [p.delay_of_le h, or_iff_right (Nat.not_lt.2 h)]
    exact min_largest_iff (Nat.pow_le_pow_right Nat.two_pos h)

theorem delay_eq_ceiling_iff : p.delay 32 = p.ceiling ↔ p.Reachable := by
  rw [p.delay_of_le (Nat.le_refl 32)]
  exact inf_eq_right

/-- A ceiling that is reached is reached by delay number 32. -/
theorem exists_delay_eq_ceiling_iff : (∃ n, p.delay n = p.ceiling) ↔ p.delay 32 = p.ceiling := by
  refine ⟨?_, fun h => ⟨32, h⟩⟩
  rintro ⟨n, hn⟩
  have hlast : p.delay n ≤ p.delay 32 := by
    rw [p.delay_of_le (Nat.le_refl 32)]
    have hproduct : p.initialDelay * factor n ≤ p.initialDelay * 0xFFFFFFFF :=
      Nat.mul_le_mul_left _ (factor_le n)
    exact le_min ((Nat.min_le_left _ _).trans hproduct) (Nat.min_le_right _ _)
  exact Nat.le_antisymm (p.delay_le_ceiling 32) (hn ▸ hlast)

/-- **The delay begins at the initial one, never decreases and stays below the ceiling; it doubles
up to the ceiling just as far as the factor does, and reaches the ceiling just if the largest factor
does.** -/
theorem delay_schedule (p : RetryPolicy) :
    p.delay 0 = p.initialDelay ∧ Monotone p.delay ∧ (∀ n, p.delay n ≤ p.ceiling) ∧
      (∀ n, p.delay (n + 1) = min (2 * p.delay n) p.ceiling ↔ n < 31 ∨
        p.initialDelay = 0 ∨ p.Reachable) ∧
      (∀ n, p.delay n = p.doubling n ↔ n < 32 ∨ p.initialDelay = 0 ∨ p.Reachable) ∧
      ((∃ n, p.delay n = p.ceiling) ↔ p.Reachable) ∧
      ∀ largest, p.ceiling ≤ largest → ∀ n, p.delay n =
        if p.initialDelay * factor n ≤ largest then min (p.initialDelay * factor n) p.ceiling
        else p.ceiling :=
  ⟨p.delay_zero, p.delay_monotone, p.delay_le_ceiling, p.delay_succ_iff, p.delay_eq_doubling_iff,
    p.exists_delay_eq_ceiling_iff.trans p.delay_eq_ceiling_iff, fun _ h n => p.delay_checked h n⟩

/-- From the longest initial delay there can be, every product but the first is too large to be
shown. -/
theorem delay_schedule_longest :
    let longest : Duration := 0x10000000000000000 * Duration.perSecond - 1
    let p : RetryPolicy := { initialDelay := longest }
    p.ceiling ≤ longest ∧ p.delay 1 = longest ∧ p.delay 33 = longest := by
  intro longest p
  have hceiling : p.ceiling ≤ longest := by decide
  have hchecked := (delay_schedule p).2.2.2.2.2.2 longest hceiling
  exact ⟨hceiling, (hchecked 1).trans (by decide), (hchecked 33).trans (by decide)⟩

/-- A delay of one nanosecond stops doubling before it comes to ten seconds. -/
theorem delay_stalls :
    let p : RetryPolicy :=
  { attempts := 40, initialDelay := 1, limitDelay := Duration.ofSeconds 10 }
    p.delay 31 = 2147483648 ∧ p.delay 32 = 4294967295 ∧
      min (2 * p.delay 31) p.ceiling = 4294967296 ∧ ∀ n, p.delay n ≠ p.ceiling := by
  intro p
  refine ⟨by decide, by decide, by decide, fun n hn => ?_⟩
  have hlast : p.delay 32 = p.ceiling := p.exists_delay_eq_ceiling_iff.1 ⟨n, hn⟩
  exact absurd hlast (by decide)

end Stairway.RetryPolicy
