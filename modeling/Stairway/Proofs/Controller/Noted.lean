import Stairway.Controller.Schedule
import Stairway.Proofs.Controller.Operations

/-!
# Notes of the calls of an engine

`Engine.noted` is an engine that does what another does and notes each call first, and how a close
was answered. `Noting` serves it: a machine of the engine it stands for, and the notes so far. The
notes are for statements about the order of calls; `erase` takes them out of a program again, and
what is left is the program of the engine itself (`erase_operation`, `erase_closing`).

Graceful stops and lines of the log are no calls: a stop is requested through a handle of its own,
by somebody who does not have the engine.
-/

namespace Stairway

/-- A call of an engine, or the answer to a close. -/
inductive Note where
  | version
  | migrateTo (version : Nat)
  | force (version : Int)
  | close
  | closed (result : CloseResult)
  | defaultLockTimeout
  | setLockTimeout (d : Duration)
  deriving DecidableEq, Repr

/-- Whether a note is about a close. -/
def Note.isOfClose : Note → Bool
  | close => true
  | closed _ => true
  | _ => false

@[reducible] def Noted.Answer (I : Interface) : I.Request ⊕ Note → Type
  | .inl r => I.Answer r
  | .inr _ => Unit

/-- An interface that also takes notes. -/
def Noted (I : Interface) : Interface := ⟨I.Request ⊕ Note, Noted.Answer I⟩

/-- A machine, and the notes so far. -/
structure Noting (σ : Type) where
  machine : σ
  notes : List Note := []

variable {I : Interface} {σ α β : Type}

instance [Machine I σ] : Machine (Noted I) (Noting σ) where
  arrive
    | .inl r, now, m =>
      let (wait, machine) := Machine.arrive r now m.machine
      (wait, { m with machine })
    | .inr _, _, m => (none, m)
  answer
    | .inl r, now, m =>
      let (a, machine) := Machine.answer r now m.machine
      (a, { m with machine })
    | .inr n, _, m => ((), { m with notes := m.notes ++ [n] })

namespace Program

/-- A program that takes no notes. -/
def noted : Program I α → Program (Noted I) α
  | done a => done a
  | crash => crash
  | pause d next => pause d next.noted
  | race d next => race d fun cut => (next cut).noted
  | ask r next => ask (.inl r) fun a => (next a).noted

/-- Takes a note. -/
def note (n : Note) : Program (Noted I) Unit := request (I := Noted I) (.inr n)

end Program

namespace Engine

variable (e : Engine I)

/-- Closes an engine, and notes the call and its answer. -/
def notedClose : Program (Noted I) CloseResult := do
  Program.note .close
  let result ← e.close.noted
  Program.note (.closed result)
  pure result

/-- An engine that notes its calls. -/
def noted : Engine (Noted I) where
  version := Program.note .version >>= fun _ => e.version.noted
  migrateTo target := Program.note (.migrateTo target) >>= fun _ => (e.migrateTo target).noted
  force v := Program.note (.force v) >>= fun _ => (e.force v).noted
  close := e.notedClose
  defaultLockTimeout := Program.note .defaultLockTimeout >>= fun _ => e.defaultLockTimeout.noted
  setLockTimeout d := Program.note (.setLockTimeout d) >>= fun _ => (e.setLockTimeout d).noted
  requestStop := e.requestStop.noted
  log line := (e.log line).noted

end Engine

/-! ## The protocol of notes -/

/-- Notes are added at the end, and nothing else changes them. -/
def noting (I : Interface) : Protocol (Noted I) (List Note) where
  allows _ _ := True
  leads s r _ t :=
    match r with
    | .inl _ => t = s
    | .inr n => t = s ++ [n]

theorem noting_governs [Machine I σ] :
    (noting I).Governs fun s (m : Noting σ) => m.notes = s where
  arrive := by
    rintro s m (r | n) now rfl -
    · rfl
    · rfl
  answer := by
    rintro s m (r | n) now rfl -
    · exact ⟨_, rfl, rfl⟩
    · exact ⟨_, rfl, rfl⟩

/-- Notes are never taken back. -/
theorem noting_extends {s t : List Note} (h : (noting I).Reaches s t) : s <+: t := by
  induction h with
  | refl s => exact List.prefix_rfl
  | @step s t u r a _ ha _ ih =>
    cases r with
    | inl r => exact (show t = s from ha) ▸ ih
    | inr n =>
      have hstep : s <+: t := (show t = s ++ [n] from ha) ▸ List.prefix_append s [n]
      exact hstep.trans ih

variable {Q : Outcome α → List Note → Prop} {s : List Note}

/-- A program that takes no notes leaves them as they are. -/
theorem noted_obeys (p : Program I α) : p.noted.Obeys (noting I) (fun _ t => t = s) s := by
  induction p with
  | done a => rfl
  | crash => rfl
  | pause d next ih => exact ih
  | race d next ih => exact ih
  | ask r next ih =>
    refine ⟨trivial, ?_⟩
    rintro a _ rfl
    exact ih a

theorem note_obeys {n : Note} {p : Program (Noted I) α} (h : p.Obeys (noting I) Q (s ++ [n])) :
    (Program.note n >>= fun _ => p).Obeys (noting I) Q s := by
  refine ⟨trivial, ?_⟩
  rintro _ _ rfl
  exact h

/-- Notes that go on from `s` without a close. -/
def Unclosed (s t : List Note) : Prop := ∃ block, t = s ++ block ∧ ∀ n ∈ block, n.isOfClose = false

theorem Unclosed.refl (s : List Note) : Unclosed s s := ⟨[], by simp, nofun⟩

theorem Unclosed.trans {t u : List Note} (h : Unclosed s t) (h' : Unclosed t u) : Unclosed s u := by
  obtain ⟨block, rfl, hblock⟩ := h
  obtain ⟨more, rfl, hmore⟩ := h'
  refine ⟨block ++ more, by simp, ?_⟩
  intro n hn
  rcases List.mem_append.1 hn with hn | hn
  · exact hblock n hn
  · exact hmore n hn

/-- What is noted on the way to notes without a close. -/
theorem Unclosed.within {t u : List Note} (h : Unclosed s u) (hst : s <+: t) (htu : t <+: u) :
    Unclosed s t := by
  obtain ⟨block, rfl, hblock⟩ := h
  obtain ⟨more, rfl⟩ := hst
  rw [List.prefix_append_right_inj] at htu
  exact ⟨more, rfl, fun n hn => hblock n (htu.subset hn)⟩

theorem Unclosed.snoc {t : List Note} (h : Unclosed s t) {n : Note} (hn : n.isOfClose = false) :
    Unclosed s (t ++ [n]) :=
  h.trans ⟨[n], rfl, by simpa using hn⟩

/-- A call that is no close. -/
theorem call_obeys {n : Note} (hn : n.isOfClose = false) (p : Program I α) {t : List Note}
    (ht : Unclosed s t) :
    (Program.note n >>= fun _ => p.noted).Obeys (noting I) (fun _ u => Unclosed s u) t :=
  note_obeys ((noted_obeys p).mono fun _ _ h => h ▸ ht.snoc hn)

/-- Whatever is noted of an operation, it is no close. -/
theorem unclosed_phases (e : Engine I) (kind : Transition) (desired : Nat) (s : List Note) :
    Engine.Phases (noting I) e.noted kind desired (Unclosed s) (fun _ => Unclosed s)
      (fun _ => Unclosed s) (Unclosed s) := by
  refine .of_keeps ?_ ?_ ?_ ?_ ?_ ?_
  · intro line t ht
    exact (noted_obeys (e.log line)).mono fun _ _ h => h ▸ ht
  · exact fun t ht => call_obeys rfl e.version ht
  · exact fun v t ht => call_obeys rfl (e.force v) ht
  · exact fun v t ht => call_obeys rfl (e.migrateTo v) ht
  · exact fun d t ht => call_obeys rfl (e.setLockTimeout d) ht
  · exact fun t ht => call_obeys rfl e.defaultLockTimeout ht

end Stairway
