import Stairway.Controller.Failure

/-!
# The deadline of an operation

An operation runs as a body of its own, and its caller waits for the end of the body or of the
context, whichever comes first. The context wins a tie, and wins at once if it is done before the
body has begun. A body whose caller has gone runs on to its end; only its result is lost.
-/

namespace Stairway

/-- What a body's end means to a caller who has waited for it. -/
def Outcome.toResult {α : Type} : Outcome (Except Failure α) → Except Failure α
  | .finished result => result
  | .crashed => .error .brokenOff

/-- The instant and the answer that a caller gets who begins to wait at `start` under a context that
is done from `expiry` on, for a body that ends as `ending` says. `none`: it waits for ever. -/
def envelope {α : Type} (start : Instant) (expiry : Option Instant)
    (ending : Option (Instant × Outcome (Except Failure α))) :
    Option (Instant × Except Failure α) :=
  match expiry, ending with
  | none, none => none
  | none, some (t, o) => some (t, o.toResult)
  | some e, none => some (max start e, .error .timedOut)
  | some e, some (t, o) =>
    if t < e then some (t, o.toResult) else some (max start e, .error .timedOut)

end Stairway
