import Stairway.Program

/-!
# Retrying with a doubling delay

A policy says how often to try and how long to wait between tries. The delay doubles from the
initial one up to a ceiling that is never below it; the factor is kept to 32 bits and saturates
there. `retrying` is the loop: it ends with the first success, with the last failure, or with the
failure at hand once the context is done.
-/

namespace Stairway

structure RetryPolicy where
  /-- No policy tries less than once. -/
  attempts : Nat := 1
  initialDelay : Duration := 0
  limitDelay : Duration := 0
  deriving DecidableEq, Repr

namespace RetryPolicy

/-- The delay never goes above this. -/
def ceiling (p : RetryPolicy) : Duration := max p.limitDelay p.initialDelay

/-- `2 ^ n`, or the largest 32-bit number where that does not fit. -/
def factor (n : Nat) : Nat := if n < 32 then 1 <<< n else 0xFFFFFFFF

/-- The wait after the failed try number `n`, counted from zero. -/
def delay (p : RetryPolicy) (n : Nat) : Duration := min (p.initialDelay * factor n) p.ceiling

end RetryPolicy

variable {I : Interface} {ε α : Type}

/-- Tries number `n`, and if it fails up to `left` more. -/
def retryFrom (p : RetryPolicy) (attempt : Nat → Program I (Except ε α)) (n : Nat) :
    Nat → Program I (Except ε α)
  | 0 => attempt n
  | left + 1 => do
    match ← attempt n with
    | .ok a => pure (.ok a)
    | .error e =>
      if ← Program.contextDone then pure (.error e)
      else
        let delay := p.delay (n - 1)
        if delay = 0 then retryFrom p attempt (n + 1) left
        else if ← Program.sleepWithin delay then pure (.error e)
        else retryFrom p attempt (n + 1) left

/-- Tries until it succeeds, the policy is used up or the context is done. Tries are numbered from
1. -/
def retrying (p : RetryPolicy) (attempt : Nat → Program I (Except ε α)) : Program I (Except ε α) :=
  retryFrom p attempt 1 (max p.attempts 1 - 1)

end Stairway
