/-!
# Durations and instants

Time is counted in whole nanoseconds, so that sums and comparisons are exact. An instant counts from
the moment the clock was started. `Duration.render` is the short text of a duration: the largest
unit that leaves a whole part, and only the decimals that are needed.
-/

namespace Stairway

/-- A length of time in nanoseconds. -/
abbrev Duration := Nat

/-- A point in time, in nanoseconds since the clock was started. -/
abbrev Instant := Nat

namespace Duration

/-- Nanoseconds in a second. -/
def perSecond : Nat := 1000000000

/-- Nanoseconds in a millisecond. -/
def perMilli : Nat := 1000000

/-- Nanoseconds in a microsecond. -/
def perMicro : Nat := 1000

def ofSeconds (s : Nat) : Duration := s * perSecond

def ofMillis (ms : Nat) : Duration := ms * perMilli

/-- `count` units of `unit` nanoseconds each, then the decimals of the rest without
trailing zeros. -/
def inUnit (d : Duration) (unit places : Nat) (name : String) : String :=
  let rest := toString (d % unit)
  let decimals := List.replicate (places - rest.length) '0' ++ rest.toList
  let kept := (decimals.reverse.dropWhile (· == '0')).reverse
  let point := if kept.isEmpty then "" else "." ++ String.ofList kept
  toString (d / unit) ++ point ++ name

/-- The short text of a duration, such as `1.5s`, `200ms` or `0ns`. -/
def render (d : Duration) : String :=
  if perSecond ≤ d then inUnit d perSecond 9 "s"
  else if perMilli ≤ d then inUnit d perMilli 6 "ms"
  else if perMicro ≤ d then inUnit d perMicro 3 "µs"
  else toString d ++ "ns"

end Duration

namespace Instant

/-- The clock counts seconds up to `2 ^ 63`; no instant lies at or beyond this one. -/
def horizon : Instant := 0x8000000000000000 * Duration.perSecond

/-- The instant `d` later, if the clock can show it. -/
def later? (t : Instant) (d : Duration) : Option Instant :=
  if t + d < horizon then some (t + d) else none

/-- The earlier of two instants, either of which may never come. -/
def earlier : Option Instant → Option Instant → Option Instant
  | some a, some b => some (min a b)
  | some a, none => some a
  | none, b => b

end Instant

end Stairway
