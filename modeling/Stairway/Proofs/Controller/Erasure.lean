import Stairway.Proofs.Controller.Errands
import Stairway.Proofs.Controller.Noted

/-!
# Notes change nothing

`erase` takes the notes out of a program, and of everything that holds one. What an engine that
notes its calls does is, without the notes, what the engine itself does: the programs of a
controller erase to those over the engine (`erase_operation`, `erase_closing`), a run erases to the
run of the erased program (`run_erase`), and so does everything that a schedule does, up to a list
of operations and the close after it (`followClose_erase`). A note takes no time, so nothing happens
earlier or later either.
-/

namespace Stairway

variable {I : Interface} {σ α β : Type}

/-! ## Programs -/

/-- A program without its notes. -/
def Program.erase : Program (Noted I) α → Program I α
  | .done a => .done a
  | .crash => .crash
  | .pause d next => .pause d next.erase
  | .race d next => .race d fun cut => (next cut).erase
  | .ask (.inl r) next => .ask r fun a => (next a).erase
  | .ask (.inr _) next => (next ()).erase

namespace Program

@[simp] theorem erase_noted (p : Program I α) : p.noted.erase = p := by
  induction p with
  | done a => rfl
  | crash => rfl
  | pause d next ih => simp only [noted, erase, ih]
  | race d next ih => simp only [noted, erase, ih]
  | ask r next ih => simp only [noted, erase, ih]

@[simp] theorem erase_bind (p : Program (Noted I) α) (f : α → Program (Noted I) β) :
    (p.bind f).erase = p.erase.bind fun a => (f a).erase := by
  induction p with
  | done a => rfl
  | crash => rfl
  | pause d next ih => simp only [bind, erase, ih]
  | race d next ih => simp only [bind, erase, ih]
  | ask r next ih =>
    cases r with
    | inl r => exact congrArg (ask r) (funext ih)
    | inr n => exact ih ()

@[simp] theorem erase_ensuring (p : Program (Noted I) α) (cleanup : Program (Noted I) Unit) :
    (p.ensuring cleanup).erase = p.erase.ensuring cleanup.erase := by
  induction p with
  | done a => simp only [ensuring, erase_bind, erase]
  | crash => simp only [ensuring, erase_bind, erase]
  | pause d next ih => simp only [ensuring, erase, ih]
  | race d next ih => simp only [ensuring, erase, ih]
  | ask r next ih =>
    cases r with
    | inl r => exact congrArg (ask r) (funext ih)
    | inr n => exact ih ()

/-- A note is gone without a trace. -/
theorem erase_note (n : Note) (p : Program I α) : (note n >>= fun _ => p.noted).erase = p :=
  erase_noted p

theorem erase_andThen {ε : Type} {x : ExceptT ε (Program (Noted I)) α}
    {f : α → ExceptT ε (Program (Noted I)) β} {y : ExceptT ε (Program I) α}
    {g : α → ExceptT ε (Program I) β} (hx : x.run.erase = y.run)
    (hf : ∀ a, (f a).run.erase = (g a).run) :
    (x >>= f).run.erase = (y >>= g).run := by
  refine (erase_bind x.run _).trans ?_
  rw [hx]
  refine congrArg (y.run.bind ·) (funext fun r => ?_)
  rcases r with e | a
  · rfl
  · exact hf a

end Program

/-! ## The programs of a controller -/

namespace Engine

variable (e : Engine I)

theorem erase_info (line : String) : (e.noted.info line).run.erase = (e.info line).run := by
  refine (Program.erase_bind _ _).trans ?_
  rw [show (e.noted.log line).erase = e.log line from Program.erase_noted _]
  rfl

theorem erase_ofEngine {p : Program (Noted I) (Except EngineError α)}
    {q : Program I (Except EngineError α)} (h : p.erase = q) :
    (Attempt.ofEngine p).run.erase = (Attempt.ofEngine q).run :=
  (Program.erase_bind _ _).trans (by rw [h]; rfl)

theorem erase_current : e.noted.current.run.erase = e.current.run :=
  Program.erase_andThen (erase_ofEngine (Program.erase_note _ _)) fun _ => rfl

theorem erase_migrate (desired : Nat) (announced confirmed : String) :
    (do
      e.noted.info announced
      Attempt.ofEngine (e.noted.migrateTo desired)
      e.noted.info confirmed : Attempt (Noted I) Unit).run.erase =
    (do
      e.info announced
      Attempt.ofEngine (e.migrateTo desired)
      e.info confirmed : Attempt I Unit).run :=
  Program.erase_andThen (e.erase_info announced) fun _ =>
    Program.erase_andThen (erase_ofEngine (Program.erase_note _ _)) fun _ => e.erase_info confirmed

theorem erase_perform (kind : Transition) (desired : Nat) :
    (e.noted.perform kind desired).run.erase = (e.perform kind desired).run := by
  cases kind with
  | assert =>
    simp only [perform, assertVersion_eq]
    refine Program.erase_andThen e.erase_current fun c => ?_
    repeat' split
    · rfl
    · rfl
    · rfl
    · exact e.erase_info _
  | apply =>
    simp only [perform, applyVersion_eq]
    refine Program.erase_andThen e.erase_current fun c => ?_
    repeat' split
    · rfl
    · exact e.erase_info _
    · rfl
    · exact e.erase_migrate desired _ _
  | rollback =>
    simp only [perform, rollbackVersion_eq]
    refine Program.erase_andThen e.erase_current fun c => Program.erase_andThen ?_ fun _ => ?_
    · split
      · rw [repair_eq, repair_eq]
        refine Program.erase_andThen (e.erase_info _) fun _ => ?_
        split
        · rfl
        · exact erase_ofEngine (Program.erase_note _ _)
      · rfl
    · unfold lower
      repeat' split
      · exact e.erase_info _
      · rfl
      · exact e.erase_migrate desired _ _

theorem erase_operation (kind : Transition) (desired : Nat) (remaining : Option Duration) :
    (e.noted.operation kind desired remaining).erase = e.operation kind desired remaining := by
  have hrestore : e.noted.restoreLockTimeout.erase = e.restoreLockTimeout := by
    refine (Program.erase_bind _ _).trans ?_
    rw [show e.noted.defaultLockTimeout.erase = e.defaultLockTimeout from Program.erase_note _ _]
    exact congrArg (e.defaultLockTimeout.bind ·) (funext fun d => Program.erase_note _ _)
  have hbody :
      (Program.ensuring (e.noted.perform kind desired).run e.noted.restoreLockTimeout).erase =
      Program.ensuring (e.perform kind desired).run e.restoreLockTimeout := by
    rw [Program.erase_ensuring, e.erase_perform, hrestore]
  cases remaining with
  | none => exact hbody
  | some d =>
    refine (Program.erase_bind _ _).trans ?_
    rw [show (e.noted.setLockTimeout d).erase = e.setLockTimeout d from Program.erase_note _ _]
    exact congrArg ((e.setLockTimeout d).bind ·) (funext fun _ => hbody)

theorem erase_closing (isBenign : String → Bool) :
    (e.noted.closing isBenign).erase = e.closing isBenign := by
  have hclose : e.notedClose.erase = e.close := by
    refine (Program.erase_bind e.close.noted _).trans ?_
    rw [Program.erase_noted]
    exact Program.bind_done _
  refine (Program.erase_bind _ _).trans ?_
  rw [show e.noted.close.erase = e.close from hclose]
  refine congrArg (e.close.bind ·) (funext fun result => ?_)
  dsimp only
  split
  · rfl
  · refine (Program.erase_bind _ _).trans ?_
    rw [show (e.noted.log _).erase = _ from Program.erase_noted _]
    rfl

theorem erase_announceClose : e.noted.announceClose.erase = e.announceClose := by
  refine (Program.erase_bind _ _).trans ?_
  rw [show (e.noted.log _).erase = e.log _ from Program.erase_noted _]
  refine congrArg ((e.log _).bind ·) (funext fun _ => ?_)
  refine (Program.erase_bind _ _).trans ?_
  rw [show e.noted.requestStop.erase = e.requestStop from Program.erase_noted _]
  rfl

end Engine

/-! ## Runs -/

/-- A program under way without its notes. -/
def Activity.erase : Activity (Noted I) α → Activity I α
  | .ended o => .ended o
  | .asleep wake next => .asleep wake next.erase
  | .awaiting wake (.inl r) next => .awaiting wake r fun a => (next a).erase
  | .awaiting wake (.inr _) next => .asleep wake (next ()).erase

def Progress.erase (p : Progress (Noted I) (Noting σ) α) : Progress I σ α :=
  ⟨p.activity.erase, p.machine.machine, p.now⟩

variable [Machine I σ]

/-- **A run without its notes is the run of the program without its notes.** -/
theorem Program.run_erase (expiry bound : Option Instant) (p : Program (Noted I) α) :
    ∀ (now : Instant) (m : Noting σ),
      p.erase.run expiry bound now m.machine = (p.run expiry bound now m).erase := by
  induction p with
  | done a => exact fun now m => rfl
  | crash => exact fun now m => rfl
  | pause d next ih =>
    intro now m
    simp only [erase, run_pause]
    split
    · exact ih _ m
    · rfl
  | race d next ih =>
    intro now m
    simp only [erase, run_race]
    generalize (if (expiry.any fun e => decide (e ≤ now + d)) = true then max now (expiry.getD now)
      else now + d) = wake
    split
    · exact ih _ _ m
    · rfl
  | ask r next ih =>
    intro now m
    cases r with
    | inr n => exact ih () now { m with notes := m.notes ++ [n] }
    | inl r =>
      rcases harrive : Machine.arrive r now m.machine with ⟨_ | d, m'⟩
      · have hnoted : Machine.arrive (I := Noted I) (.inl r) now m =
            (none, { m with machine := m' }) := by
          simp only [Machine.arrive, harrive]
        rw [run_ask_now hnoted]
        exact (run_ask_now harrive).trans
          (ih _ now { m with machine := (Machine.answer r now m').2 })
      · have hnoted : Machine.arrive (I := Noted I) (.inl r) now m =
            (some d, { m with machine := m' }) := by
          simp only [Machine.arrive, harrive]
        rw [run_ask_later hnoted]
        refine (run_ask_later harrive).trans ?_
        split
        · exact ih _ (now + d) { m with machine := (Machine.answer r (now + d) m').2 }
        · rfl

theorem Activity.run_erase (expiry bound : Option Instant) (a : Activity (Noted I) α)
    (now : Instant) (m : Noting σ) :
    a.erase.run expiry bound now m.machine = (a.run expiry bound now m).erase := by
  cases a with
  | ended o => rfl
  | asleep wake next =>
    simp only [erase, run_asleep]
    split
    · exact next.run_erase expiry bound _ m
    · rfl
  | awaiting wake r next =>
    cases r with
    | inl r =>
      simp only [erase, run]
      split
      · exact (next _).run_erase expiry bound _
          { m with machine := (Machine.answer r _ m.machine).2 }
      · rfl
    | inr n =>
      simp only [erase, run]
      split
      · exact (next ()).run_erase expiry bound _ { m with notes := m.notes ++ [n] }
      · rfl

/-! ## Schedules -/

def Body.erase (b : Body (Noted I)) : Body I := ⟨b.serial, b.deadline, fun d => (b.program d).erase⟩

def Closing.erase (c : Closing (Noted I)) : Closing I :=
  ⟨c.body.erase, c.announcement.erase, c.gate⟩

namespace Schedule

/-- A schedule without the notes. -/
def erase (x : Schedule (Noted I) (Noting σ)) : Schedule I σ where
  engine := x.engine.machine
  now := x.now
  holder := x.holder.map fun (n, a) => (n, a.erase)
  line := x.line.map (·.erase)
  closing := x.closing.map (·.erase)
  armed := x.armed
  endings := x.endings
  next := x.next

theorem lend_erase (bound : Option Instant) (line : List (Body (Noted I))) :
    ∀ (x : Schedule (Noted I) (Noting σ)) (t : Instant),
      x.erase.lend bound t (line.map (·.erase)) =
        ((x.lend bound t line).1.erase, (x.lend bound t line).2) := by
  induction line with
  | nil => exact fun x t => rfl
  | cons b rest ih =>
    intro x t
    have hrun : (b.erase.start t).run none bound t x.erase.engine =
        ((b.start t).run none bound t x.engine).erase := (b.start t).run_erase none bound t x.engine
    simp only [List.map_cons, lend, hrun]
    rcases (b.start t).run none bound t x.engine with ⟨o | _ | ⟨wake, _ | _, next⟩, m, now⟩
    · exact ih { x with engine := m, endings := x.endings ++ [⟨b.serial, o, now⟩] } now
    · rfl
    · rfl
    · rfl

theorem work_erase (bound : Option Instant) (x : Schedule (Noted I) (Noting σ)) :
    x.erase.work bound = ((x.work bound).1.erase, (x.work bound).2) := by
  rcases hx : x.holder with _ | ⟨n, a⟩
  · have hx' : x.erase.holder = none := by simp [erase, hx]
    rw [work_free bound hx, work_free bound hx']
    exact lend_erase bound x.line x x.now
  · have hx' : x.erase.holder = some (n, a.erase) := by simp [erase, hx]
    have hrun : a.erase.run none bound x.now x.erase.engine =
        (a.run none bound x.now x.engine).erase :=
      a.run_erase none bound x.now x.engine
    simp only [work, hx, hx']
    rw [show x.erase.now = x.now from rfl, hrun]
    rcases a.run none bound x.now x.engine with ⟨o | _ | ⟨wake, _ | _, next⟩, m, now⟩
    · exact lend_erase bound x.line
        { x with engine := m, holder := none, endings := x.endings ++ [⟨n, o, now⟩] } now
    · rfl
    · rfl
    · rfl

theorem announce_erase (x : Schedule (Noted I) (Noting σ)) :
    x.erase.announce = x.announce.erase := by
  rcases hx : x.closing with _ | ⟨body, announcement, _ | gate⟩
  · simp [announce, erase, hx]
  · simp only [announce, hx, erase, Option.map_some, Closing.erase]
    rw [announcement.run_erase none none x.now x.engine]
    rfl
  · simp [announce, erase, hx, Closing.erase]

theorem prepare_erase (x : Schedule (Noted I) (Noting σ)) : x.erase.prepare = x.prepare.erase := by
  rcases hx : x.closing with _ | ⟨body, announcement, _ | gate⟩
  · simp [prepare, erase, hx]
  · have hx' : x.erase.closing = some ⟨body.erase, announcement.erase, none⟩ := by
      simp [erase, hx, Closing.erase]
    simp only [prepare, hx, hx']
    rw [show x.erase.now = x.now from rfl, work_erase, announce_erase]
  · simp [prepare, erase, hx, Closing.erase]

theorem takeIn_erase (bound : Option Instant) (x : Schedule (Noted I) (Noting σ)) (t : Instant) :
    x.erase.takeIn bound t = (x.takeIn bound t).erase := by
  rcases hx : x.closing with _ | ⟨body, announcement, _ | gate⟩
  · simp [takeIn, erase, hx]
  · simp [takeIn, erase, hx, Closing.erase]
  · have hx' : x.erase.closing = some ⟨body.erase, announcement.erase, some gate⟩ := by
      simp [erase, hx, Closing.erase]
    have hended : x.erase.hasEnded = x.hasEnded := rfl
    have hholder : x.erase.holder.isNone = x.holder.isNone := by simp [erase]
    have hline : ({ x with closing := none, line := x.line ++ [body] } : Schedule _ _).erase =
        { x.erase with closing := none, line := x.erase.line ++ [body.erase] } := by simp [erase]
    simp only [takeIn, hx, hx', hended, hholder, ← hline]
    split
    · split
      · have hlend := lend_erase bound (x.line ++ [body])
          { x with closing := none, line := x.line ++ [body] } t
        rw [List.map_append, List.map_singleton] at hlend
        exact congrArg Prod.fst hlend
      · rfl
    · rfl

theorem advance_erase (bound : Option Instant) (x : Schedule (Noted I) (Noting σ)) :
    x.erase.advance bound = (x.advance bound).erase := by
  rw [advance_eq, advance_eq, prepare_erase, work_erase, takeIn_erase]

theorem elapseTo_erase (t : Instant) (x : Schedule (Noted I) (Noting σ)) :
    x.erase.elapseTo t = (x.elapseTo t).erase := by
  unfold elapseTo
  rw [advance_erase]
  rfl

theorem rest_erase (pause : Option Duration) (x : Schedule (Noted I) (Noting σ)) :
    x.erase.rest pause = (x.rest pause).erase := by
  cases pause with
  | none => rfl
  | some d => exact elapseTo_erase _ x

theorem await_erase (x : Schedule (Noted I) (Noting σ)) (serial : Nat) (expiry : Option Instant) :
    x.erase.await serial expiry = ((x.await serial expiry).1, (x.await serial expiry).2.erase) := by
  have hending : ∀ y : Schedule (Noted I) (Noting σ),
      y.erase.endingOf? serial = y.endingOf? serial :=
    fun _ => rfl
  have hnow : x.erase.now = x.now := rfl
  simp only [await, advance_erase, hending, hnow]
  split
  · rfl
  · cases envelope x.now expiry (((x.advance (expiry.map (· + 1))).endingOf? serial).map fun e =>
      (e.time, e.outcome)) <;> rfl

variable (e : Engine I)

omit [Machine I σ] in
theorem issue_erase (x : Schedule (Noted I) (Noting σ)) (kind : Transition) (desired : Nat)
    (deadline : Option Instant) :
    (x.erase.issue deadline (e.operation kind desired)).2 =
      (x.issue deadline (e.noted.operation kind desired)).2.erase := by
  have hprogram : (fun d => (e.noted.operation kind desired d).erase) = e.operation kind desired :=
    funext (e.erase_operation kind desired)
  simp [issue, erase, Body.erase, hprogram]

theorem perform_erase (x : Schedule (Noted I) (Noting σ)) (kind : Transition) (desired : Nat)
    (deadline expiry : Option Instant) :
    x.erase.perform e kind desired deadline expiry =
      ((x.perform e.noted kind desired deadline expiry).1,
        (x.perform e.noted kind desired deadline expiry).2.erase) := by
  have hissue := issue_erase e x kind desired deadline
  exact (congrArg (await · x.next expiry) hissue).trans (await_erase _ x.next expiry)

theorem close_erase (x : Schedule (Noted I) (Noting σ)) (isBenign : String → Bool)
    (expiry : Option Instant) :
    x.erase.close e isBenign expiry =
      ((x.close e.noted isBenign expiry).1, (x.close e.noted isBenign expiry).2.erase) := by
  have hissue : (x.erase.issueClose e.announceClose (e.closing isBenign)).2 =
      (x.issueClose e.noted.announceClose (e.noted.closing isBenign)).2.erase := by
    simp [issueClose, erase, Body.erase, Closing.erase, e.erase_closing, e.erase_announceClose]
  exact (congrArg (await · x.next expiry) hissue).trans (await_erase _ x.next expiry)

/-- **An engine that notes its calls does what the engine does**, through any list of operations. -/
theorem follow_erase (errands : List Errand) : ∀ x : Schedule (Noted I) (Noting σ),
    x.erase.follow e errands =
      ((x.follow e.noted errands).1, (x.follow e.noted errands).2.erase) := by
  induction errands with
  | nil => exact fun x => rfl
  | cons errand errands ih =>
    intro x
    simp only [follow]
    rw [rest_erase, perform_erase, ih]

theorem followClose_erase (isBenign : String → Bool) (errands : List Errand)
    (pause : Option Duration) (expiry : Option Instant) (x : Schedule (Noted I) (Noting σ)) :
    x.erase.followClose e isBenign errands pause expiry =
      ((x.followClose e.noted isBenign errands pause expiry).1,
        (x.followClose e.noted isBenign errands pause expiry).2.erase) := by
  unfold followClose
  rw [follow_erase, rest_erase, close_erase]

end Schedule

end Stairway
