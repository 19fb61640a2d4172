import Stairway.Proofs.Controller.Errands
import Stairway.Proofs.Program.Finish

/-!
# Maps between machines

A map of states with which serving commutes (`Machine.Commutes`) takes runs to runs: the same
program makes the same answers at the same instants on a state and on its image. So it takes a whole
schedule to a schedule (`Schedule.map`), and whatever a controller does there (`follow_map`,
`followClose_map`).

This is for bookkeeping beside a machine: to forget it is such a map, and so the bookkeeping changes
nothing of what it is kept of.
-/

namespace Stairway

variable {I : Interface} {σ τ α : Type} [Machine I σ] [Machine I τ] {f : σ → τ}

/-- Serving commutes with a map of states. -/
structure Machine.Commutes (I : Interface) [Machine I σ] [Machine I τ] (f : σ → τ) : Prop where
  arrive : ∀ (r : I.Request) now m,
    Machine.arrive r now (f m) = ((Machine.arrive r now m).1, f (Machine.arrive r now m).2)
  answer : ∀ (r : I.Request) now m,
    Machine.answer r now (f m) = ((Machine.answer r now m).1, f (Machine.answer r now m).2)

/-! ## Runs -/

def Progress.map (f : σ → τ) (p : Progress I σ α) : Progress I τ α :=
  ⟨p.activity, f p.machine, p.now⟩

def Program.End.map (f : σ → τ) (e : Program.End σ α) : Program.End τ α :=
  ⟨e.outcome, f e.machine, e.now⟩

/-- **A run on an image is the image of the run.** -/
theorem Program.run_map (hf : Machine.Commutes I f) (expiry bound : Option Instant)
    (p : Program I α) :
    ∀ (now : Instant) (m : σ), p.run expiry bound now (f m) = (p.run expiry bound now m).map f := by
  induction p with
  | done a => exact fun now m => rfl
  | crash => exact fun now m => rfl
  | pause d next ih =>
    intro now m
    rw [run_pause, run_pause]
    split
    · exact ih _ m
    · rfl
  | race d next ih =>
    intro now m
    rw [run_race, run_race]
    generalize (if (expiry.any fun e => decide (e ≤ now + d)) = true then max now (expiry.getD now)
      else now + d) = wake
    split
    · exact ih _ _ m
    · rfl
  | ask r next ih =>
    intro now m
    have himage := hf.arrive r now m
    rcases harrive : Machine.arrive r now m with ⟨_ | d, m'⟩
    · rw [harrive] at himage
      rw [run_ask_now himage, run_ask_now harrive, hf.answer]
      exact ih _ now _
    · rw [harrive] at himage
      rw [run_ask_later himage, run_ask_later harrive, hf.answer]
      split
      · exact ih _ (now + d) _
      · rfl

theorem Program.finish_map (hf : Machine.Commutes I f) (p : Program I α) (now : Instant) (m : σ) :
    p.finish now (f m) = (p.finish now m).map f := by
  have hrun := p.run_map hf none none now m
  rw [run_eq_finish, run_eq_finish] at hrun
  obtain ⟨houtcome, hmachine, hnow⟩ := Progress.mk.inj hrun
  rcases himage : p.finish now (f m) with ⟨o, n, t⟩
  rw [himage] at houtcome hmachine hnow
  obtain rfl := Activity.ended.inj houtcome
  obtain rfl : n = f (p.finish now m).machine := hmachine
  obtain rfl : t = (p.finish now m).now := hnow
  rfl

theorem Activity.run_map (hf : Machine.Commutes I f) (expiry bound : Option Instant)
    (a : Activity I α) (now : Instant) (m : σ) :
    a.run expiry bound now (f m) = (a.run expiry bound now m).map f := by
  cases a with
  | ended o => rfl
  | asleep wake next =>
    rw [run_asleep, run_asleep]
    split
    · exact next.run_map hf expiry bound _ m
    · rfl
  | awaiting wake r next =>
    rw [run_awaiting, run_awaiting, hf.answer]
    split
    · exact (next _).run_map hf expiry bound _ _
    · rfl

/-! ## Schedules -/

namespace Schedule

/-- A schedule whose engine is in another state. -/
def map (f : σ → τ) (x : Schedule I σ) : Schedule I τ where
  engine := f x.engine
  now := x.now
  holder := x.holder
  line := x.line
  closing := x.closing
  armed := x.armed
  endings := x.endings
  next := x.next

theorem lend_map (hf : Machine.Commutes I f) (bound : Option Instant) (line : List (Body I)) :
    ∀ (x : Schedule I σ) (t : Instant),
      (x.map f).lend bound t line = ((x.lend bound t line).1.map f, (x.lend bound t line).2) := by
  induction line with
  | nil => exact fun x t => rfl
  | cons b rest ih =>
    intro x t
    have hrun : (b.start t).run none bound t (x.map f).engine =
        ((b.start t).run none bound t x.engine).map f :=
          (b.start t).run_map hf none bound t x.engine
    simp only [lend, hrun]
    rcases (b.start t).run none bound t x.engine with ⟨o | _ | _, m, now⟩
    · exact ih { x with engine := m, endings := x.endings ++ [⟨b.serial, o, now⟩] } now
    · rfl
    · rfl

theorem work_map (hf : Machine.Commutes I f) (bound : Option Instant) (x : Schedule I σ) :
    (x.map f).work bound = ((x.work bound).1.map f, (x.work bound).2) := by
  rcases hx : x.holder with _ | ⟨n, a⟩
  · have hx' : (x.map f).holder = none := hx
    rw [work_free bound hx, work_free bound hx']
    exact lend_map hf bound x.line x x.now
  · have hx' : (x.map f).holder = some (n, a) := hx
    have hrun : a.run none bound x.now (x.map f).engine = (a.run none bound x.now x.engine).map f :=
      a.run_map hf none bound x.now x.engine
    simp only [work, hx, hx']
    rw [show (x.map f).now = x.now from rfl, hrun]
    rcases a.run none bound x.now x.engine with ⟨o | _ | _, m, now⟩
    · exact lend_map hf bound x.line
        { x with engine := m, holder := none, endings := x.endings ++ [⟨n, o, now⟩] } now
    · rfl
    · rfl

theorem announce_map (hf : Machine.Commutes I f) (x : Schedule I σ) :
    (x.map f).announce = x.announce.map f := by
  rcases hx : x.closing with _ | ⟨body, announcement, _ | gate⟩
  · simp [announce, map, hx]
  · simp only [announce, hx, map]
    rw [announcement.run_map hf none none x.now x.engine]
    rfl
  · simp [announce, map, hx]

theorem prepare_map (hf : Machine.Commutes I f) (x : Schedule I σ) :
    (x.map f).prepare = x.prepare.map f := by
  have hclosing : (x.map f).closing = x.closing := rfl
  unfold prepare
  rw [hclosing]
  split
  · rw [show (x.map f).now = x.now from rfl, work_map hf, announce_map hf]
  · rfl

theorem takeIn_map (hf : Machine.Commutes I f) (bound : Option Instant) (x : Schedule I σ)
    (t : Instant) :
    (x.map f).takeIn bound t = (x.takeIn bound t).map f := by
  rcases hx : x.closing with _ | ⟨body, announcement, _ | gate⟩
  · have hx' : (x.map f).closing = none := hx
    simp only [takeIn, hx, hx']
  · have hx' : (x.map f).closing = some ⟨body, announcement, none⟩ := hx
    simp only [takeIn, hx, hx']
  · have hx' : (x.map f).closing = some ⟨body, announcement, some gate⟩ := hx
    have hended : (x.map f).hasEnded = x.hasEnded := rfl
    have hholder : (x.map f).holder = x.holder := rfl
    simp only [takeIn, hx, hx', hended, hholder]
    split
    · split
      · exact congrArg Prod.fst
          (lend_map hf bound (x.line ++ [body])
            { x with closing := none, line := x.line ++ [body] } t)
      · rfl
    · rfl

theorem advance_map (hf : Machine.Commutes I f) (bound : Option Instant) (x : Schedule I σ) :
    (x.map f).advance bound = (x.advance bound).map f := by
  rw [advance_eq, advance_eq, prepare_map hf, work_map hf, takeIn_map hf]

theorem elapseTo_map (hf : Machine.Commutes I f) (x : Schedule I σ) (t : Instant) :
    (x.map f).elapseTo t = (x.elapseTo t).map f := by
  unfold elapseTo
  rw [advance_map hf]
  rfl

theorem rest_map (hf : Machine.Commutes I f) (pause : Option Duration) (x : Schedule I σ) :
    (x.map f).rest pause = (x.rest pause).map f := by
  cases pause with
  | none => rfl
  | some d => exact elapseTo_map hf x (x.now + d)

theorem await_map (hf : Machine.Commutes I f) (x : Schedule I σ) (serial : Nat)
    (expiry : Option Instant) :
    (x.map f).await serial expiry =
      ((x.await serial expiry).1, (x.await serial expiry).2.map f) := by
  have hending : ∀ y : Schedule I σ, (y.map f).endingOf? serial = y.endingOf? serial := fun _ => rfl
  have hnow : (x.map f).now = x.now := rfl
  simp only [await, advance_map hf, hending, hnow]
  split
  · rfl
  · cases envelope x.now expiry (((x.advance (expiry.map (· + 1))).endingOf? serial).map fun e =>
      (e.time, e.outcome)) <;> rfl

theorem perform_map (hf : Machine.Commutes I f) (e : Engine I) (kind : Transition) (desired : Nat)
    (deadline expiry : Option Instant) (x : Schedule I σ) :
    (x.map f).perform e kind desired deadline expiry =
      ((x.perform e kind desired deadline expiry).1,
        (x.perform e kind desired deadline expiry).2.map f) :=
  await_map hf (x.issue deadline (e.operation kind desired)).2 x.next expiry

theorem close_map (hf : Machine.Commutes I f) (e : Engine I) (isBenign : String → Bool)
    (expiry : Option Instant) (x : Schedule I σ) :
    (x.map f).close e isBenign expiry =
      ((x.close e isBenign expiry).1, (x.close e isBenign expiry).2.map f) :=
  await_map hf (x.issueClose e.announceClose (e.closing isBenign)).2 x.next expiry

theorem follow_map (hf : Machine.Commutes I f) (e : Engine I) (errands : List Errand) :
    ∀ x : Schedule I σ,
      (x.map f).follow e errands = ((x.follow e errands).1, (x.follow e errands).2.map f) := by
  induction errands with
  | nil => exact fun x => rfl
  | cons errand errands ih =>
    intro x
    simp only [follow]
    rw [rest_map hf, perform_map hf, ih]

/-- **What a controller does on an image** is the image of what it does, through any list of
operations and the close after it. -/
theorem followClose_map (hf : Machine.Commutes I f) (e : Engine I) (isBenign : String → Bool)
    (errands : List Errand) (pause : Option Duration) (expiry : Option Instant) (x : Schedule I σ) :
    (x.map f).followClose e isBenign errands pause expiry =
      ((x.followClose e isBenign errands pause expiry).1,
        (x.followClose e isBenign errands pause expiry).2.map f) := by
  unfold followClose
  rw [follow_map hf, rest_map hf, close_map hf]

end Schedule

end Stairway
