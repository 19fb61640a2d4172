import Stairway.Time

/-!
# Contexts

A context says how long an operation may take: it may have a deadline, and it has a token through
which it can be cancelled. Tokens form a forest: a token is cancelled with every token above it.
Copies of a context share its token, so cancelling one cancels all.

`Cancellations` is the record of what has been cancelled, and of what a timer will cancel: each
entry holds the instant from which it counts. `Context.isDone` looks at one instant;
`Context.expiry` says from which instant on the context is done, which is what somebody who waits
for it needs.
-/

namespace Stairway

/-- A token: its own serial number, followed by those of the tokens above it, nearest first. -/
abbrev Token := List Nat

/-- Whether `t` is `above` itself or lies under it. -/
def Token.isUnder (t above : Token) : Bool := above.isSuffixOf t

structure Context where
  deadline : Option Instant
  token : Token
  deriving DecidableEq

/-- The serial number of the next token, and the tokens that are cancelled, each from an
instant on. -/
structure Cancellations where
  next : Nat := 0
  entries : List (Instant × Token) := []

namespace Cancellations

/-- A token of its own, under nothing. -/
def freshToken (c : Cancellations) : Token × Cancellations :=
  ([c.next], { c with next := c.next + 1 })

/-- A token under `t`. -/
def childToken (c : Cancellations) (t : Token) : Token × Cancellations :=
  (c.next :: t, { c with next := c.next + 1 })

/-- Cancels a token from the instant `at_` on. -/
def cancel (c : Cancellations) (at_ : Instant) (t : Token) : Cancellations :=
  { c with entries := c.entries ++ [(at_, t)] }

/-- Whether a token, or one above it, has been cancelled by the instant `now`. -/
def isCancelled (c : Cancellations) (now : Instant) (t : Token) : Bool :=
  c.entries.any fun (i, above) => i ≤ now && t.isUnder above

/-- The first instant at which a token counts as cancelled. -/
def cancelledFrom (c : Cancellations) (t : Token) : Option Instant :=
  c.entries.foldl
    (fun first (i, above) => if t.isUnder above then Instant.earlier first (some i) else first)
    none

end Cancellations

namespace Context

/-- A context that is never done unless it is cancelled. -/
def background (c : Cancellations) : Context × Cancellations :=
  let (t, c) := c.freshToken
  (⟨none, t⟩, c)

def withDeadline (c : Cancellations) (deadline : Instant) : Context × Cancellations :=
  let (t, c) := c.freshToken
  (⟨some deadline, t⟩, c)

/-- A context that is done after `timeout`; one that the clock cannot show is no deadline. -/
def withTimeout (c : Cancellations) (now : Instant) (timeout : Duration) :
    Context × Cancellations :=
  let (t, c) := c.freshToken
  (⟨now.later? timeout, t⟩, c)

/-- A context under `parent`: done with it, after `timeout` and at the parent's deadline, whichever
comes first. -/
def child (parent : Context) (c : Cancellations) (now : Instant) (timeout : Duration) :
    Context × Cancellations :=
  let (t, c) := c.childToken parent.token
  (⟨Instant.earlier parent.deadline (now.later? timeout), t⟩, c)

def cancel (ctx : Context) (c : Cancellations) (now : Instant) : Cancellations :=
  c.cancel now ctx.token

/-- The time left before the deadline, nothing once it has passed. -/
def remaining (ctx : Context) (now : Instant) : Option Duration := ctx.deadline.map (· - now)

/-- Whether the deadline has come or the context has been cancelled. -/
def isDone (ctx : Context) (c : Cancellations) (now : Instant) : Bool :=
  c.isCancelled now ctx.token || ctx.deadline.any (· ≤ now)

/-- The first instant at which the context is done, if nobody cancels anything else. -/
def expiry (ctx : Context) (c : Cancellations) : Option Instant :=
  Instant.earlier ctx.deadline (c.cancelledFrom ctx.token)

end Context

end Stairway
