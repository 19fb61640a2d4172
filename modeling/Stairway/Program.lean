import Stairway.Time

/-!
# Programs and the machines that serve them

A `Program` is a computation cut at every point where something outside it matters: a request to an
engine or a server, a wait, the end. Requests are data and the rest of the program is a function of
the answer, so one program can be run against an engine in memory, a scripted server, or a server
that several sessions share.

`Program.run` carries a program through time on one machine, up to a bound: it stops at the first
wait that ends at or after the bound and keeps what is left as an `Activity`, which can be run on
later. A request that the machine answers at once takes no time and gives way to nobody.
-/

namespace Stairway

/-- What may be asked, and what kind of answer each request has. -/
structure Interface where
  Request : Type
  Answer : Request → Type

/-- A computation that asks requests of an interface and waits. -/
inductive Program (I : Interface) (α : Type) : Type where
  /-- The computation is over. -/
  | done (result : α)
  /-- The computation broke off without a result. -/
  | crash
  /-- Waits. -/
  | pause (length : Duration) (next : Program I α)
  /-- Waits, but no longer than the context lives; `next` is told whether the context was done. -/
  | race (length : Duration) (next : Bool → Program I α)
  /-- Asks a request and goes on with its answer. -/
  | ask (request : I.Request) (next : I.Answer request → Program I α)

namespace Program

variable {I : Interface} {α β γ : Type}

def bind (p : Program I α) (f : α → Program I β) : Program I β :=
  match p with
  | done a => f a
  | crash => crash
  | pause d next => pause d (next.bind f)
  | race d next => race d fun b => (next b).bind f
  | ask r next => ask r fun a => (next a).bind f

instance : Monad (Program I) where
  pure := done
  bind := bind

@[simp] theorem pure_def (a : α) : (pure a : Program I α) = done a := rfl

@[simp] theorem bind_def (p : Program I α) (f : α → Program I β) : p >>= f = p.bind f := rfl

@[simp] theorem bind_done (p : Program I α) : p.bind done = p := by
  induction p with
  | done => rfl
  | crash => rfl
  | pause d next ih => simp only [bind, ih]
  | race d next ih => simp only [bind, ih]
  | ask r next ih => simp only [bind, ih]

theorem bind_assoc (p : Program I α) (f : α → Program I β) (g : β → Program I γ) :
    (p.bind f).bind g = p.bind fun a => (f a).bind g := by
  induction p with
  | done => rfl
  | crash => rfl
  | pause d next ih => simp only [bind, ih]
  | race d next ih => simp only [bind, ih]
  | ask r next ih => simp only [bind, ih]

/-- The program that asks one request and answers with what it was told. -/
def request (r : I.Request) : Program I (I.Answer r) := ask r done

/-- Waits for `d`. -/
def sleep (d : Duration) : Program I Unit := pause d (done ())

/-- Waits for `d` or until the context is done; says whether the context was done. -/
def sleepWithin (d : Duration) : Program I Bool := race d done

/-- Whether the context is done now. -/
def contextDone : Program I Bool := race 0 done

/-- Runs `cleanup` at the end of `p`, also where `p` breaks off. -/
def ensuring (p : Program I α) (cleanup : Program I Unit) : Program I α :=
  match p with
  | done a => cleanup.bind fun _ => done a
  | crash => cleanup.bind fun _ => crash
  | pause d next => pause d (next.ensuring cleanup)
  | race d next => race d fun b => (next b).ensuring cleanup
  | ask r next => ask r fun a => (next a).ensuring cleanup

end Program

/-- How a state of type `σ` serves the requests of `I`. -/
class Machine (I : Interface) (σ : Type) where
  /-- A request arrives. `some d`: its answer takes `d`, and others may run meanwhile (even if `d`
  is zero); `none`: it is answered on the spot. -/
  arrive : (r : I.Request) → Instant → σ → Option Duration × σ := fun _ _ s => (none, s)
  /-- The answer to a request, given at an instant, and its effect. -/
  answer : (r : I.Request) → Instant → σ → I.Answer r × σ

/-- How a program ended. -/
inductive Outcome (α : Type) where
  | finished (result : α)
  | crashed

/-- A program under way: over, or waiting until an instant. -/
inductive Activity (I : Interface) (α : Type) where
  | ended (outcome : Outcome α)
  | asleep (wake : Instant) (next : Program I α)
  | awaiting (wake : Instant) (request : I.Request) (next : I.Answer request → Program I α)

/-- How far a program has come: what is left of it, the machine's state and the instant. -/
structure Progress (I : Interface) (σ α : Type) where
  activity : Activity I α
  machine : σ
  now : Instant

/-- Whether a wait that ends at `t` ends before the bound; `none` is no bound. -/
def Instant.isBefore (t : Instant) (bound : Option Instant) : Bool := bound.all (t < ·)

namespace Program

variable {I : Interface} {σ α : Type} [Machine I σ]

/-- Runs a program from the instant `now`, under a context that is done from `expiry` on, until it
ends or waits for an instant that is not before `bound`. -/
def run (expiry bound : Option Instant) : Program I α → Instant → σ → Progress I σ α
  | done a, now, s => ⟨.ended (.finished a), s, now⟩
  | crash, now, s => ⟨.ended .crashed, s, now⟩
  | pause d next, now, s =>
    if (now + d).isBefore bound then next.run expiry bound (now + d) s
    else ⟨.asleep (now + d) next, s, now⟩
  | race d next, now, s =>
    let cut := expiry.any (· ≤ now + d)
    let wake := if cut then max now (expiry.getD now) else now + d
    if d == 0 || wake.isBefore bound then (next cut).run expiry bound wake s
    else ⟨.asleep wake (next cut), s, now⟩
  | ask r next, now, s =>
    match Machine.arrive r now s with
    | (none, s) =>
      let (a, s) := Machine.answer r now s
      (next a).run expiry bound now s
    | (some d, s) =>
      if (now + d).isBefore bound then
        let (a, s) := Machine.answer r (now + d) s
        (next a).run expiry bound (now + d) s
      else ⟨.awaiting (now + d) r next, s, now⟩

variable {expiry bound : Option Instant} {now : Instant} {s : σ}

theorem run_pause {d : Duration} {next : Program I α} :
    (pause d next).run expiry bound now s =
      if (now + d).isBefore bound then next.run expiry bound (now + d) s
      else ⟨.asleep (now + d) next, s, now⟩ := rfl

theorem run_race {d : Duration} {next : Bool → Program I α} :
    (race d next).run expiry bound now s =
      if d == 0 ||
          (if expiry.any (· ≤ now + d) then max now (expiry.getD now)
            else now + d).isBefore bound then
        (next (expiry.any (· ≤ now + d))).run expiry bound
          (if expiry.any (· ≤ now + d) then max now (expiry.getD now) else now + d) s
      else
        ⟨.asleep (if expiry.any (· ≤ now + d) then max now (expiry.getD now) else now + d)
          (next (expiry.any (· ≤ now + d))), s, now⟩ := rfl

theorem run_ask {r : I.Request} {next : I.Answer r → Program I α} :
    (ask r next).run expiry bound now s =
      match Machine.arrive r now s with
      | (none, s) =>
        let (a, s) := Machine.answer r now s
        (next a).run expiry bound now s
      | (some d, s) =>
        if (now + d).isBefore bound then
          let (a, s) := Machine.answer r (now + d) s
          (next a).run expiry bound (now + d) s
        else ⟨.awaiting (now + d) r next, s, now⟩ := by
  rw [run]

end Program

namespace Activity

variable {I : Interface} {σ α : Type} [Machine I σ]

/-- A program that has been started and not been looked at. -/
def ofProgram (now : Instant) (p : Program I α) : Activity I α := .asleep now p

/-- Runs on what is left of a program. -/
def run (expiry bound : Option Instant) : Activity I α → Instant → σ → Progress I σ α
  | ended o, now, s => ⟨.ended o, s, now⟩
  | asleep wake next, now, s =>
    if wake.isBefore bound then next.run expiry bound (max now wake) s
    else ⟨.asleep wake next, s, now⟩
  | awaiting wake r next, now, s =>
    if wake.isBefore bound then
      let (a, s) := Machine.answer r (max now wake) s
      (next a).run expiry bound (max now wake) s
    else ⟨.awaiting wake r next, s, now⟩

variable {expiry bound : Option Instant} {wake now : Instant} {s : σ}

theorem run_asleep {next : Program I α} :
    (asleep wake next).run expiry bound now s =
      if wake.isBefore bound then next.run expiry bound (max now wake) s
        else ⟨.asleep wake next, s, now⟩ := rfl

theorem run_awaiting {r : I.Request} {next : I.Answer r → Program I α} :
    (awaiting wake r next).run expiry bound now s =
      if wake.isBefore bound then
        (next (Machine.answer r (max now wake) s).1).run expiry bound (max now wake)
          (Machine.answer r (max now wake) s).2
      else ⟨.awaiting wake r next, s, now⟩ := rfl

end Activity

end Stairway
