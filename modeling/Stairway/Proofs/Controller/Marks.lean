import Stairway.Proofs.Controller.Erasure
import Stairway.Proofs.Controller.Maps

/-!
# Marks of migrations

`Traced` is a machine beside which everything is written down that says how far migrations have
come, in one order: the calls of the engine, where a migration has looked for a stop and what it has
found, and where a step has begun and been completed. It also keeps when a stop was asked for. To
forget this is a map of machines (`untraced`).

Operations have the engine one after the other, so the marks go through phases. `Phase.hear` says
how, and `Engine.Paced` which marks the programs of an engine make. It follows that an operation
starts in the phase `idle`, by reading the version, and is back in it at its end
(`Paced.operation`): a step is begun after a look that has found no stop, and a migration that has
found one makes no mark any more.
-/

namespace Stairway

variable {I : Interface} {σ α : Type}

/-! ## Marks -/

inductive Mark where
  /-- The engine is called. -/
  | call (n : Note)
  /-- A migration has looked for a stop, before a step. -/
  | looked (found : Bool)
  /-- A step marks the schema dirty. -/
  | begun
  /-- A step is over as far as the schema is concerned. -/
  | completed
  deriving DecidableEq

namespace Mark

def isLook : Mark → Bool
  | looked _ => true
  | _ => false

/-- Whether a mark is about the inside of a step. -/
def isOfStep : Mark → Bool
  | begun | completed => true
  | _ => false

/-- The call with which an operation starts. -/
abbrev start : Mark := .call .version

end Mark

/-- Which requests ask for a stop, and which ones are marked. -/
class Marked (I : Interface) where
  asks : I.Request → Bool
  mark : (r : I.Request) → I.Answer r → Option Mark

instance [Marked I] : Marked (Noted I) where
  asks
    | .inl r => Marked.asks r
    | .inr _ => false
  mark
    | .inl r, a => Marked.mark (I := I) r a
    | .inr n, _ => some (.call n)

/-- A machine, and the marks so far. -/
structure Traced (σ : Type) where
  machine : σ
  marks : List Mark := []
  /-- How many marks there were when a stop was asked for last. -/
  asked : Option Nat := none

instance [Marked I] [Machine I σ] : Machine I (Traced σ) where
  arrive r now m :=
    let (wait, machine) := Machine.arrive r now m.machine
    (wait, { m with machine })
  answer r now m :=
    let (a, machine) := Machine.answer r now m.machine
    (a, {
      machine
      marks := m.marks ++ (Marked.mark r a).toList
      asked := if Marked.asks r then some m.marks.length else m.asked })

/-- **To keep marks changes nothing.** -/
theorem untraced [Marked I] [Machine I σ] : Machine.Commutes I fun m : Traced σ => m.machine where
  arrive _ _ _ := rfl
  answer _ _ _ := rfl

/-! ## Phases -/

/-- How far the operation has come that has the engine. -/
inductive Phase where
  /-- Nobody has it, or the operation is at its beginning or its end. -/
  | idle
  | ready
  /-- A look has found no stop. -/
  | going
  | running
  /-- A look has found a stop. -/
  | halted
  deriving DecidableEq

namespace Phase

/-- The phase after a mark, if it may be made. -/
def hear : Phase → Mark → Option Phase
  | _, .call .defaultLockTimeout => some idle
  | idle, .call .version => some ready
  | idle, .call (.setLockTimeout _) => some idle
  | idle, .call .close => some idle
  | idle, .call (.closed _) => some idle
  | ready, .call (.force _) => some ready
  | ready, .call (.migrateTo _) => some ready
  | ready, .looked found => some (if found then halted else going)
  | going, .begun => some running
  | running, .completed => some ready
  | running, .looked found => some (if found then halted else going)
  | _, _ => none

/-- The phase after some marks. -/
def after (φ : Phase) (marks : List Mark) : Option Phase := marks.foldlM hear φ

variable {φ ψ : Phase} {marks more : List Mark}

theorem after_append : φ.after (marks ++ more) = (φ.after marks).bind (·.after more) := by
  unfold after
  rw [List.foldlM_append]
  rfl

theorem after_cons {m : Mark} : φ.after (m :: marks) = (φ.hear m).bind (·.after marks) := rfl

end Phase

/-- How many operations have started. -/
def starts (marks : List Mark) : Nat := marks.count .start

@[simp] theorem starts_append (marks more : List Mark) :
    starts (marks ++ more) = starts marks + starts more :=
  List.count_append

/-- From the marks `s` to `t`, which begin between two operations, `k` operations have started and
the phase is `φ`. -/
def Led (s : List Mark) (φ : Phase) (k : Nat) (t : List Mark) : Prop :=
  ∃ block, t = s ++ block ∧ Phase.idle.after block = some φ ∧ starts block = k

namespace Led

variable {s t : List Mark} {φ ψ : Phase} {k l : Nat}

theorem refl (s : List Mark) : Led s .idle 0 s := ⟨[], by simp, rfl, rfl⟩

theorem trans {u : List Mark} (h : Led s .idle k t) (h' : Led t φ l u) : Led s φ (k + l) u := by
  obtain ⟨block, rfl, hblock, rfl⟩ := h
  obtain ⟨more, rfl, hmore, rfl⟩ := h'
  refine ⟨block ++ more, by simp, ?_, by simp [starts]⟩
  rw [Phase.after_append, hblock]
  exact hmore

theorem hear (h : Led s φ k t) {m : Mark} (hm : φ.hear m = some ψ) (hstart : m ≠ .start) :
    Led s ψ k (t ++ [m]) := by
  obtain ⟨block, rfl, hblock, rfl⟩ := h
  refine ⟨block ++ [m], by simp, ?_, ?_⟩
  · rw [Phase.after_append, hblock]
    exact congrArg (Option.bind · some) hm
  · simp [starts, hstart]

theorem start (h : Led s .idle k t) : Led s .ready (k + 1) (t ++ [.start]) := by
  obtain ⟨block, rfl, hblock, rfl⟩ := h
  refine ⟨block ++ [.start], by simp, ?_, by simp [starts]⟩
  rw [Phase.after_append, hblock]
  rfl

end Led

/-! ## Programs and their marks -/

/-- Marks are added at the end, and nothing else changes them. -/
def marking (I : Interface) [Marked I] : Protocol I (List Mark) where
  allows _ _ := True
  leads s r a t := t = s ++ (Marked.mark r a).toList

variable [Marked I] {Q : Outcome α → List Mark → Prop} {s t : List Mark}

theorem marking_ask {r : I.Request} {f : I.Answer r → Program I α}
    (h : ∀ a, (f a).Obeys (marking I) Q (s ++ (Marked.mark r a).toList)) :
    (Program.request r >>= f).Obeys (marking I) Q s := by
  refine ⟨trivial, ?_⟩
  rintro a _ rfl
  exact h a

theorem marking_silent {r : I.Request} {f : I.Answer r → Program I α}
    (hr : ∀ a, Marked.mark r a = none) (h : ∀ a, (f a).Obeys (marking I) Q s) :
    (Program.request r >>= f).Obeys (marking I) Q s := by
  refine marking_ask fun a => ?_
  rw [hr a, Option.toList_none, List.append_nil]
  exact h a

/-- A program that leaves no mark. -/
def Program.Unmarked (p : Program I α) : Prop := ∀ t, p.Obeys (marking I) (fun _ u => u = t) t

namespace Program.Unmarked

variable {β ε : Type}

theorem ask {r : I.Request} {f : I.Answer r → Program I α} (hr : ∀ a, Marked.mark r a = none)
    (h : ∀ a, (f a).Unmarked) : (Program.request r >>= f).Unmarked :=
  fun t => marking_silent hr fun a => h a t

theorem bind {p : Program I α} {f : α → Program I β} (hp : p.Unmarked) (hf : ∀ a, (f a).Unmarked) :
    (p >>= f).Unmarked := by
  intro t
  refine Program.obeys_bind.2 ((hp t).mono ?_)
  rintro (a | _) _ rfl
  · exact hf a _
  · exact rfl

theorem keeps {x : ExceptT ε (Program I) α} (hx : x.run.Unmarked) {ok : α → List Mark → Prop}
    {failed : List Mark → Prop} {t : List Mark} (hok : ∀ a, ok a t) (hfailed : failed t) :
    x.run.Obeys (marking I) (onSuccess ok failed) t := by
  refine (hx t).mono ?_
  rintro ((e | a) | _) _ rfl
  · exact hfailed
  · exact hok a
  · exact hfailed

/-- First a program that leaves no mark, and may fail. -/
theorem andThen {x : ExceptT ε (Program I) α} (hx : x.run.Unmarked)
    {f : α → ExceptT ε (Program I) β} {ok : β → List Mark → Prop} {failed : List Mark → Prop}
    {t : List Mark} (hfailed : failed t)
    (hf : ∀ a, (f a).run.Obeys (marking I) (onSuccess ok failed) t) :
    (x >>= f).run.Obeys (marking I) (onSuccess ok failed) t := by
  refine obeys_andThen (R := fun _ u => t = u) (hx.keeps (fun _ => rfl) hfailed) ?_
  rintro a _ rfl
  exact hf a

theorem seq {x : ExceptT ε (Program I) α} (hx : x.run.Unmarked) {f : α → ExceptT ε (Program I) β}
    (hf : ∀ a, (f a).run.Unmarked) : (x >>= f).run.Unmarked :=
  fun t => obeys_onSuccess.1 (hx.andThen rfl fun a => obeys_onSuccess.2 (hf a t))

end Program.Unmarked

/-- Marks are never taken back. -/
theorem marking_extends (h : (marking I).Reaches s t) : s <+: t := by
  induction h with
  | refl s => exact List.prefix_rfl
  | @step s t u r a _ ha _ ih =>
    have hstep : s <+: t := (show t = s ++ (Marked.mark r a).toList from ha) ▸
      List.prefix_append s _
    exact hstep.trans ih

theorem marking_noted {p : Program I α} : ∀ {s : List Mark}, p.Obeys (marking I) Q s →
    p.noted.Obeys (marking (Noted I)) Q s := by
  induction p with
  | done a => exact id
  | crash => exact id
  | pause d next ih => exact ih
  | race d next ih => exact fun h cut => ih cut (h cut)
  | ask r next ih => exact fun h => ⟨trivial, fun a t ht => ih a (h.2 a t ht)⟩

theorem marking_note {n : Note} {p : Program I α} (h : p.Obeys (marking I) Q (s ++ [.call n])) :
    (Program.note n >>= fun _ => p.noted).Obeys (marking (Noted I)) Q s := by
  refine ⟨trivial, ?_⟩
  rintro _ _ rfl
  exact marking_noted h

/-! ## Engines and their marks -/

namespace Engine

/-- Which marks an engine makes: none but in a migration, where it looks for a stop before each
step. -/
structure Paced (e : Engine I) : Prop where
  version : e.version.Unmarked
  force : ∀ v, (e.force v).Unmarked
  migrateTo : ∀ v {s k t}, Led s .ready k t →
    (e.migrateTo v).Obeys (marking I) (fun _ u => ∃ φ, Led s φ k u) t
  close : e.close.Unmarked
  log : ∀ line, (e.log line).Unmarked
  requestStop : e.requestStop.Unmarked
  setLockTimeout : ∀ d t,
    (e.setLockTimeout d).Obeys (marking I) (fun o u => o = .finished () ∧ u = t) t
  defaultLockTimeout : e.defaultLockTimeout.Unmarked

namespace Paced

variable {e : Engine I} {φ : Phase} {k : Nat}

theorem setting (h : e.Paced) (d : Duration) (ht : Led s .idle k t) :
    (e.noted.setLockTimeout d).Obeys (marking (Noted I))
      (fun o u => o = .finished () ∧ Led s .idle k u) t := by
  refine marking_note ((h.setLockTimeout d _).mono ?_)
  rintro _ _ ⟨rfl, rfl⟩
  exact ⟨rfl, ht.hear rfl nofun⟩

/-- An operation puts the lock timeout back at its end. -/
theorem restore (h : e.Paced) (ht : Led s φ k t) :
    e.noted.restoreLockTimeout.Obeys (marking (Noted I)) (fun _ u => Led s .idle k u) t := by
  have hend : φ.hear (.call .defaultLockTimeout) = some .idle := by cases φ <;> rfl
  refine (Program.obeys_bind (p := e.noted.defaultLockTimeout)).2 ?_
  refine marking_note ((h.defaultLockTimeout _).mono ?_)
  rintro (d | _) _ rfl
  · exact (h.setting d (ht.hear hend nofun)).mono fun _ _ hu => hu.2
  · exact ht.hear hend nofun

theorem phases (h : e.Paced) (kind : Transition) (desired : Nat) (s : List Mark) :
    Phases (marking (Noted I)) e.noted kind desired (Led s .idle 0) (fun _ => Led s .ready 1)
      (fun _ => Led s .ready 1) (fun t => ∃ φ, Led s φ 1 t) where
  read_ended _ _ ht := ⟨_, ht⟩
  repaired_ended _ _ ht := ⟨_, ht⟩
  log_read line _ t ht := (marking_noted (h.log line t)).mono fun _ _ hu => hu ▸ ht
  log_repaired line _ t ht := (marking_noted (h.log line t)).mono fun _ _ hu => hu ▸ ht
  log_ended line t ht := (marking_noted (h.log line t)).mono fun _ _ hu => hu ▸ ht
  version t ht := by
    refine marking_note ((h.version _).mono ?_)
    rintro ((err | v) | _) _ rfl
    · exact ⟨_, ht.start⟩
    · exact ht.start
    · exact ⟨_, ht.start⟩
  force _ c t ht _ _ := by
    refine marking_note ((h.force c.version _).mono ?_)
    rintro ((err | v) | _) _ rfl
    · exact ⟨_, ht.hear rfl nofun⟩
    · exact ht.hear rfl nofun
    · exact ⟨_, ht.hear rfl nofun⟩
  migrateUp _ _ t ht _ _ := marking_note (h.migrateTo desired (ht.hear rfl nofun))
  migrateDown _ _ t ht _ :=
    marking_note (h.migrateTo desired (Led.hear (by simpa using ht) rfl nofun))
  setLockTimeout d t ht := by
    refine (h.setting d ht).mono ?_
    rintro _ u ⟨rfl, hu⟩
    exact hu
  restore t ht := by
    obtain ⟨φ, ht⟩ := ht
    exact (h.restore ht).mono fun _ _ hu => ⟨_, hu⟩

/-- **An operation starts once and is over at its end**, whatever time its context leaves it. -/
theorem operation (h : e.Paced) (kind : Transition) (desired : Nat) (remaining : Option Duration)
    (s : List Mark) :
    (e.noted.operation kind desired remaining).Obeys (marking (Noted I))
      (fun _ t => Led s .idle 1 t) s := by
  have hbody : ∀ t, Led s .idle 0 t →
      (Program.ensuring (e.noted.perform kind desired).run e.noted.restoreLockTimeout).Obeys
        (marking (Noted I)) (fun _ t => Led s .idle 1 t) t := by
    intro t ht
    have hperform := Program.obeys_onSuccess.1 ((h.phases kind desired s).perform ht)
    refine Program.obeys_ensuring.2 (hperform.mono ?_)
    rintro o u ⟨φ, hu⟩
    refine (h.restore hu).mono ?_
    rintro (_ | _) v hv <;> exact hv
  cases remaining with
  | none => exact hbody s (.refl s)
  | some d =>
    refine (Program.obeys_bind (p := e.noted.setLockTimeout d)).2 ((h.setting d (.refl s)).mono ?_)
    rintro _ t ⟨rfl, ht⟩
    exact hbody t ht

theorem notedClose (h : e.Paced) (s : List Mark) :
    e.notedClose.Obeys (marking (Noted I)) (fun _ t => Led s .idle 0 t) s := by
  have hcalled : Led s .idle 0 (s ++ [.call .close]) := (Led.refl s).hear rfl nofun
  refine ⟨trivial, ?_⟩
  rintro _ _ rfl
  refine (Program.obeys_bind (p := e.close.noted)).2 ((marking_noted (h.close _)).mono ?_)
  rintro (result | _) _ rfl
  · refine ⟨trivial, ?_⟩
    rintro _ _ rfl
    exact hcalled.hear rfl nofun
  · exact hcalled

theorem announcing (h : e.Paced) (s : List Mark) :
    e.noted.announceClose.Obeys (marking (Noted I)) (fun _ t => t = s) s := by
  refine Program.obeys_bind.2 ((marking_noted (h.log "Closing migrator" s)).mono ?_)
  rintro (_ | _) _ rfl
  · refine Program.obeys_bind.2 ((marking_noted (h.requestStop _)).mono ?_)
    rintro (_ | _) _ rfl <;> rfl
  · rfl

theorem closing (h : e.Paced) (isBenign : String → Bool) (s : List Mark) :
    (e.noted.closing isBenign).Obeys (marking (Noted I)) (fun _ t => Led s .idle 0 t) s := by
  refine (Program.obeys_bind (p := e.notedClose)).2 ((h.notedClose s).mono ?_)
  rintro (result | _) t ht
  · simp only [Program.afterwards]
    split
    · exact ht
    · refine Program.obeys_bind.2 ((marking_noted (h.log "Closed migrator" t)).mono ?_)
      rintro (_ | _) _ rfl <;> exact ht
  · exact ht

end Paced

end Engine

end Stairway
