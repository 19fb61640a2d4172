/-!
# Graceful stop

A stop request asks a running migration to end after its current step. Requests are kept in a slot
for one: a second request is dropped while the first has not been taken, and all are dropped once
nobody listens any more. Taking the request empties the slot.
-/

namespace Stairway

structure StopSlot where
  pending : Bool := false
  /-- Whether somebody will still look at the slot. -/
  listening : Bool := true
  deriving DecidableEq

namespace StopSlot

/-- Asks for a stop; says whether the request was kept. -/
def request (s : StopSlot) : Bool × StopSlot :=
  if s.pending || !s.listening then (false, s) else (true, { s with pending := true })

/-- Takes the request out of the slot, if there is one. -/
def take (s : StopSlot) : Bool × StopSlot := (s.pending, { s with pending := false })

/-- Nobody listens any more. -/
def drop (_ : StopSlot) : StopSlot := ⟨false, false⟩

end StopSlot

end Stairway
