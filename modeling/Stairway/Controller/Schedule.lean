import Stairway.Controller.Envelope
import Stairway.Controller.Transition

/-!
# Who has the engine

A controller owns one engine and lends it to one body at a time. `Schedule` is everything about a
controller that changes: the engine's state, the body that holds it, the line of bodies that wait
for it in the order in which they asked, a close that is under way, and the endings so far.

A body gets the engine when it is first in line and the engine is free, and keeps it to its end; a
caller who has stopped waiting does not take it out of the line. The *gate* follows the operation
issued last: `isIdle` says that its body has ended. A close first announces itself, then waits for
the gate, and only then gets in line.

Nothing here waits: `advance` runs every body as far as it comes before a bound, and `elapse`,
`settle` and `await` move the caller's clock along.
-/

namespace Stairway

/-- A body that has been issued. It learns how much time its context leaves when it gets
the engine. -/
structure Body (I : Interface) where
  serial : Nat
  deadline : Option Instant
  program : Option Duration → Program I (Except Failure Unit)

/-- The program of a body that gets the engine at `now`. -/
def Body.start {I : Interface} (b : Body I) (now : Instant) : Program I (Except Failure Unit) :=
  b.program (b.deadline.map (· - now))

/-- How and when a body ended. -/
structure Ending where
  serial : Nat
  outcome : Outcome (Except Failure Unit)
  time : Instant

/-- A close that has not got in line. -/
structure Closing (I : Interface) where
  body : Body I
  announcement : Program I Unit
  /-- `none` until it has announced itself; then the operation whose end it waits for, if any. -/
  gate : Option (Option Nat)

structure Schedule (I : Interface) (σ : Type) where
  engine : σ
  /-- The caller's clock. -/
  now : Instant
  holder : Option (Nat × Activity I (Except Failure Unit)) := none
  line : List (Body I) := []
  closing : Option (Closing I) := none
  /-- The operation that the gate follows. -/
  armed : Option Nat := none
  endings : List Ending := []
  /-- The serial number of the next body. -/
  next : Nat := 0

namespace Schedule

variable {I : Interface} {σ : Type}

/-- Whether a body has ended. -/
def hasEnded (s : Schedule I σ) (serial : Nat) : Bool := s.endings.any (·.serial == serial)

def endingOf? (s : Schedule I σ) (serial : Nat) : Option Ending :=
  s.endings.find? (·.serial == serial)

/-- Whether the operation issued last has ended. -/
def isIdle (s : Schedule I σ) : Bool := s.armed.all s.hasEnded

variable [Machine I σ]

/-- Lends the engine to the bodies in line, one after the other, from the instant `t` on. -/
def lend (bound : Option Instant) (s : Schedule I σ) (t : Instant) :
    List (Body I) → Schedule I σ × Instant
  | [] => ({ s with line := [] }, t)
  | b :: rest =>
    let p := (b.start t).run none bound t s.engine
    match p.activity with
    | .ended o =>
      lend bound
        { s with engine := p.machine, endings := s.endings ++ [Ending.mk b.serial o p.now] }
          p.now rest
    | a => ({ s with engine := p.machine, holder := some (b.serial, a), line := rest }, p.now)

/-- Runs the body that holds the engine, then those in line. Gives the instant up to which
it came. -/
def work (bound : Option Instant) (s : Schedule I σ) : Schedule I σ × Instant :=
  match s.holder with
  | none => s.lend bound s.now s.line
  | some (serial, a) =>
    let p := a.run none bound s.now s.engine
    match p.activity with
    | .ended o =>
      let s := { s with
        engine := p.machine, holder := none, endings := s.endings ++ [Ending.mk serial o p.now] }
      s.lend bound p.now s.line
    | a => ({ s with engine := p.machine, holder := some (serial, a) }, p.now)

/-- A close that has not announced itself does so now, and takes over what the gate waits for. -/
def announce (s : Schedule I σ) : Schedule I σ :=
  match s.closing with
  | some ⟨body, announcement, none⟩ =>
    let p := announcement.run none none s.now s.engine
    { s with
      engine := p.machine, closing := some ⟨body, announcement, some s.armed⟩, armed := none }
  | _ => s

/-- Runs all bodies as far as they come before the bound. Bodies issued before a close begin before
it announces itself; it gets in line when its gate opens. -/
def advance (bound : Option Instant) (s : Schedule I σ) : Schedule I σ :=
  let s := match s.closing with
    | some ⟨_, _, none⟩ => (s.work (some s.now)).1.announce
    | _ => s
  let (s, t) := s.work bound
  match s.closing with
  | some ⟨body, _, some gate⟩ =>
    if gate.all s.hasEnded then
      let s := { s with closing := none, line := s.line ++ [body] }
      if s.holder.isNone then (s.lend bound t s.line).1 else s
    else s
  | _ => s

/-- Lets everything happen that is due by the instant `t`, and moves the clock there. -/
def elapseTo (s : Schedule I σ) (t : Instant) : Schedule I σ :=
  { s.advance (some (t + 1)) with now := max s.now t }

/-- Lets everything happen that is due now. -/
def settle (s : Schedule I σ) : Schedule I σ := s.elapseTo s.now

/-- Issues an operation under a context with this deadline; gives its serial number. The gate
follows it from now on. -/
def issue (s : Schedule I σ) (deadline : Option Instant)
    (program : Option Duration → Program I (Except Failure Unit)) : Nat × Schedule I σ :=
  (s.next, { s with
    next := s.next + 1, armed := some s.next, line := s.line ++ [⟨s.next, deadline, program⟩] })

/-- Issues a close. -/
def issueClose (s : Schedule I σ) (announcement : Program I Unit)
    (program : Program I (Except Failure Unit)) :
    Nat × Schedule I σ :=
  (s.next, { s with
    next := s.next + 1, closing := some ⟨⟨s.next, none, fun _ => program⟩, announcement, none⟩ })

/-- Waits for a body under a context that is done from `expiry` on. A context that is done already
leaves the body no time to begin. `none`: the caller waits for ever. -/
def await (s : Schedule I σ) (serial : Nat) (expiry : Option Instant) :
    Option (Except Failure Unit) × Schedule I σ :=
  if expiry.any (· ≤ s.now) then (some (.error .timedOut), s)
  else
    let later := s.advance (expiry.map (· + 1))
    let ending := (later.endingOf? serial).map fun e => (e.time, e.outcome)
    match envelope s.now expiry ending with
    | some (t, result) => (some result, { later with now := t })
    | none => (none, later)

/-- Runs an operation of an engine under a context. -/
def perform (s : Schedule I σ) (e : Engine I) (kind : Transition) (desired : Nat)
    (deadline expiry : Option Instant) : Option (Except Failure Unit) × Schedule I σ :=
  let (serial, s) := s.issue deadline (e.operation kind desired)
  s.await serial expiry

/-- Closes an engine under a context. -/
def close (s : Schedule I σ) (e : Engine I) (isBenign : String → Bool) (expiry : Option Instant) :
    Option (Except Failure Unit) × Schedule I σ :=
  let (serial, s) := s.issueClose e.announceClose (e.closing isBenign)
  s.await serial expiry

end Schedule

end Stairway
