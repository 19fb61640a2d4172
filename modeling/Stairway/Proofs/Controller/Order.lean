import Stairway.Controller.Schedule
import Stairway.Proofs.Program.Finish

/-!
# Bodies have the engine in the order in which they were issued

A body gets the engine when the one before it has ended, and keeps it to its end. `Served` says this
of the bodies that have ended: the state of the engine has gone through their effects one after the
other. `Follows` says it of a whole schedule: the bodies issued so far are those that have ended,
then the one that holds the engine, part of the way through its program, then those that wait, in
this order.

Whatever a caller does keeps `Follows`: issuing, closing, waiting, or not waiting. Nothing here asks
when anything happens, so it holds for every placement of deadlines. The gate is not needed for the
order; it only says when a close gets in line, and `advance_gate` that it does.
-/

namespace Stairway.Schedule

variable {I : Interface} {S σ : Type}

/-- Bodies that have ended, one after the other, each with an ending and a state as `spec` says. -/
inductive Served (spec : Body I → S → Outcome (Except Failure Unit) → S → Prop) (s₀ : S) :
    List (Body I) → List Ending → S → Prop where
  | none : Served spec s₀ [] [] s₀
  | next {bodies : List (Body I)} {endings : List Ending} {s t : S} {b : Body I} {e : Ending}
      (before : Served spec s₀ bodies endings s) (serial : e.serial = b.serial)
      (effect : spec b s e.outcome t) : Served spec s₀ (bodies ++ [b]) (endings ++ [e]) t

/-- Bodies that have not got the engine, the first of them next. -/
def waiting (x : Schedule I σ) : List (Body I) := x.line ++ (x.closing.map (·.body)).toList

/-- A schedule that has served the bodies issued so far in their order, up to where it is. -/
inductive Follows (P : Protocol I S) (link : S → σ → Prop)
    (spec : Body I → S → Outcome (Except Failure Unit) → S → Prop) (s₀ : S) :
    List (Body I) → Schedule I σ → Prop where
  | free {x : Schedule I σ} {ended : List (Body I)} {s : S} (holder : x.holder = none)
      (served : Served spec s₀ ended x.endings s) (linked : link s x.engine) :
      Follows P link spec s₀ (ended ++ x.waiting) x
  | held {x : Schedule I σ} {ended : List (Body I)} {s t : S} {b : Body I}
      {a : Activity I (Except Failure Unit)} (holder : x.holder = some (b.serial, a))
      (served : Served spec s₀ ended x.endings s) (reached : P.Reaches s t)
      (obeys : a.Obeys P (spec b s) t) (linked : link t x.engine) :
      Follows P link spec s₀ (ended ++ b :: x.waiting) x

/-- A body that, begun in any state and at any time, ends as `spec` says. -/
def Meets (P : Protocol I S) (spec : Body I → S → Outcome (Except Failure Unit) → S → Prop)
    (b : Body I) : Prop :=
  ∀ s now, (b.start now).Obeys P (spec b s) s

/-! ## Serials -/

theorem Served.serials {spec : Body I → S → Outcome (Except Failure Unit) → S → Prop} {s₀ s : S}
    {bodies : List (Body I)} {endings : List Ending} (h : Served spec s₀ bodies endings s) :
    endings.map (·.serial) = bodies.map (·.serial) := by
  induction h with
  | none => rfl
  | next _ serial _ ih => simp [ih, serial]

theorem Served.mono {spec spec' : Body I → S → Outcome (Except Failure Unit) → S → Prop}
    {s₀ s : S} {bodies : List (Body I)} {endings : List Ending}
    (h : Served spec s₀ bodies endings s)
    (hspec : ∀ b ∈ bodies, ∀ s o t, spec b s o t → spec' b s o t) :
    Served spec' s₀ bodies endings s := by
  induction h with
  | none => exact .none
  | next before serial effect ih =>
    exact .next (ih fun b hb => hspec b (List.mem_append_left _ hb)) serial
      (hspec _ (by simp) _ _ _ effect)

theorem Served.last {spec : Body I → S → Outcome (Except Failure Unit) → S → Prop} {s₀ t : S}
    {bodies : List (Body I)} {b : Body I} {endings : List Ending}
    (h : Served spec s₀ (bodies ++ [b]) endings t) : ∃ before e s, endings = before ++ [e] ∧
      Served spec s₀ bodies before s ∧ e.serial = b.serial ∧ spec b s e.outcome t := by
  generalize hbodies : bodies ++ [b] = served at h
  cases h with
  | none => simp at hbodies
  | next before serial effect =>
    obtain ⟨rfl, hb⟩ := List.append_inj' hbodies rfl
    obtain rfl := List.singleton_inj.1 hb
    exact ⟨_, _, _, rfl, before, serial, effect⟩

theorem hasEnded_iff {x : Schedule I σ} {k : Nat} :
    x.hasEnded k = true ↔ k ∈ x.endings.map (·.serial) := by
  simp [hasEnded]

/-- Bodies that are numbered from 0 in the order of their issue. -/
def Numbered (issued : List (Body I)) : Prop := issued.map (·.serial) = List.range issued.length

theorem Numbered.snoc {issued : List (Body I)} (h : Numbered issued) {b : Body I}
    (hb : b.serial = issued.length) : Numbered (issued ++ [b]) := by
  unfold Numbered at *
  simp [h, hb, List.range_succ]

/-- The bodies of the front have the smallest numbers. -/
theorem Numbered.front {front rest : List (Body I)} (h : Numbered (front ++ rest)) :
    front.map (·.serial) = List.range front.length := by
  unfold Numbered at h
  have := congrArg (List.take front.length) h
  simpa [List.take_range] using this

theorem Numbered.serial_at {front rest : List (Body I)} {b : Body I}
    (h : Numbered (front ++ b :: rest)) : b.serial = front.length := by
  unfold Numbered at h
  have := congrArg (fun l => l[front.length]?) h
  simpa using this

variable {P : Protocol I S} {link : S → σ → Prop}
  {spec : Body I → S → Outcome (Except Failure Unit) → S → Prop} {s₀ : S}
  {issued : List (Body I)} {x : Schedule I σ}

/-- The body with a number is that many bodies from the start, and it has ended if that many and one
have. -/
theorem Served.hasEnded_iff {ended rest : List (Body I)} {s : S} (hn : Numbered (ended ++ rest))
    (h : Served spec s₀ ended x.endings s) (k : Nat) : x.hasEnded k = true ↔ k < ended.length := by
  rw [Schedule.hasEnded_iff, h.serials, hn.front, List.mem_range]

/-- **If every body issued has ended, the engine is free and has gone through all
their effects.** -/
theorem Follows.served (h : Follows P link spec s₀ issued x) (hn : Numbered issued)
    (hall : ∀ k < issued.length, x.hasEnded k = true) :
    ∃ s, Served spec s₀ issued x.endings s ∧ link s x.engine := by
  cases h with
  | @free _ ended s holder served linked =>
    have hw : x.waiting.length = 0 := Nat.eq_zero_of_not_pos fun hpos => by
      have := (served.hasEnded_iff hn _).1 (hall ended.length (by simp; omega))
      omega
    rw [List.length_eq_zero_iff.1 hw, List.append_nil]
    exact ⟨s, served, linked⟩
  | @held _ ended s t b a holder served reached obeys linked =>
    have := (served.hasEnded_iff hn _).1 (hall ended.length (by simp))
    omega

/-- A schedule follows the same bodies if it has the same ones in the same places. Its engine may be
linked in another way. -/
theorem Follows.carry {y : Schedule I σ} {link' : S → σ → Prop}
    (h : Follows P link spec s₀ issued x) (holder : y.holder = x.holder)
    (endings : y.endings = x.endings) (waiting : y.waiting = x.waiting)
    (engine : ∀ s, link s x.engine → link' s y.engine) : Follows P link' spec s₀ issued y := by
  cases h with
  | free free served linked =>
    rw [← waiting]
    exact .free (holder.trans free) (endings ▸ served) (engine _ linked)
  | held held served reached obeys linked =>
    rw [← waiting]
    exact .held (holder.trans held) (endings ▸ served) reached obeys (engine _ linked)

/-! ## Lending -/

/-- What lending and working leave alone. -/
structure SameDesk (x y : Schedule I σ) : Prop where
  closing : y.closing = x.closing
  armed : y.armed = x.armed
  next : y.next = x.next
  now : y.now = x.now

theorem SameDesk.trans {x y z : Schedule I σ} (h₁ : SameDesk x y)
    (h₂ : SameDesk y z) : SameDesk x z :=
  ⟨h₂.closing.trans h₁.closing, h₂.armed.trans h₁.armed, h₂.next.trans h₁.next, h₂.now.trans h₁.now⟩

variable [Machine I σ]

/-- The first in line either ends before the bound, and the next one follows, or keeps
the engine. -/
theorem lend_cons (bound : Option Instant) (x : Schedule I σ) (t : Instant) (b : Body I)
    (rest : List (Body I)) :
    (∃ o, ((b.start t).run none bound t x.engine).activity = .ended o ∧
      x.lend bound t (b :: rest) =
        lend bound { x with
          engine := ((b.start t).run none bound t x.engine).machine
          endings := x.endings ++ [⟨b.serial, o, ((b.start t).run none bound t x.engine).now⟩] }
          ((b.start t).run none bound t x.engine).now rest) ∨
    (∀ o, ((b.start t).run none bound t x.engine).activity ≠ .ended o) ∧
      x.lend bound t (b :: rest) =
        ({ x with
          engine := ((b.start t).run none bound t x.engine).machine
          holder := some (b.serial, ((b.start t).run none bound t x.engine).activity)
          line := rest }, ((b.start t).run none bound t x.engine).now) := by
  simp only [lend]
  cases ((b.start t).run none bound t x.engine).activity with
  | ended o => exact .inl ⟨o, rfl, rfl⟩
  | asleep wake next => exact .inr ⟨nofun, rfl⟩
  | awaiting wake r next => exact .inr ⟨nofun, rfl⟩

/-- The body that has the engine either ends before the bound, and those in line follow, or keeps
it. -/
theorem work_held (bound : Option Instant) {x : Schedule I σ} {n : Nat}
    {a : Activity I (Except Failure Unit)} (holder : x.holder = some (n, a)) :
    (∃ o, (a.run none bound x.now x.engine).activity = .ended o ∧
      x.work bound =
        lend bound { x with
          engine := (a.run none bound x.now x.engine).machine
          holder := none
          endings := x.endings ++ [⟨n, o, (a.run none bound x.now x.engine).now⟩] }
          (a.run none bound x.now x.engine).now x.line) ∨
    (∀ o, (a.run none bound x.now x.engine).activity ≠ .ended o) ∧
      x.work bound =
        ({ x with
          engine := (a.run none bound x.now x.engine).machine
          holder := some (n, (a.run none bound x.now x.engine).activity) },
          (a.run none bound x.now x.engine).now) := by
  simp only [work, holder]
  cases (a.run none bound x.now x.engine).activity with
  | ended o => exact .inl ⟨o, rfl, rfl⟩
  | asleep wake next => exact .inr ⟨nofun, rfl⟩
  | awaiting wake r next => exact .inr ⟨nofun, rfl⟩

theorem work_free (bound : Option Instant) {x : Schedule I σ} (holder : x.holder = none) :
    x.work bound = x.lend bound x.now x.line := by
  simp only [work, holder]

theorem lend_sameDesk (bound : Option Instant) (line : List (Body I)) :
    ∀ (x : Schedule I σ) (t : Instant), SameDesk x (x.lend bound t line).1 := by
  induction line with
  | nil => exact fun x t => ⟨rfl, rfl, rfl, rfl⟩
  | cons b rest ih =>
    intro x t
    obtain ⟨o, -, h⟩ | ⟨-, h⟩ := lend_cons bound x t b rest
    · rw [h]
      refine SameDesk.trans ?_ (ih _ _)
      exact ⟨rfl, rfl, rfl, rfl⟩
    · rw [h]
      exact ⟨rfl, rfl, rfl, rfl⟩

theorem work_sameDesk (bound : Option Instant) (x : Schedule I σ) :
    SameDesk x (x.work bound).1 := by
  rcases hx : x.holder with _ | ⟨n, a⟩
  · rw [work_free bound hx]
    exact lend_sameDesk bound x.line x x.now
  · obtain ⟨o, -, h⟩ | ⟨-, h⟩ := work_held bound hx
    · rw [h]
      refine SameDesk.trans ?_ (lend_sameDesk bound x.line _ _)
      exact ⟨rfl, rfl, rfl, rfl⟩
    · rw [h]
      exact ⟨rfl, rfl, rfl, rfl⟩

theorem lend_follows (hP : P.Governs link) (bound : Option Instant) (line : List (Body I)) :
    ∀ {x : Schedule I σ} {t : Instant} {ended : List (Body I)} {s : S},
      x.holder = none → Served spec s₀ ended x.endings s → link s x.engine →
      (∀ b ∈ line, Meets P spec b) →
      Follows P link spec s₀ (ended ++ (line ++ (x.closing.map (·.body)).toList))
        (x.lend bound t line).1 := by
  induction line with
  | nil =>
    intro x t ended s holder served linked _
    exact Follows.free (x := { x with line := [] }) holder served linked
  | cons b rest ih =>
    intro x t ended s holder served linked hmeets
    obtain ⟨u, reached, linked', obeys⟩ :=
      hP.run none bound (hmeets b List.mem_cons_self s t) linked
    obtain ⟨o, ha, h⟩ | ⟨-, h⟩ := lend_cons bound x t b rest
    · rw [ha] at obeys
      rw [h]
      have hfront := ih (t := ((b.start t).run none bound t x.engine).now) (x := { x with
          engine := ((b.start t).run none bound t x.engine).machine
          endings := x.endings ++ [⟨b.serial, o, ((b.start t).run none bound t x.engine).now⟩] })
        holder (served.next rfl obeys) linked' fun c hc => hmeets c (List.mem_cons_of_mem b hc)
      simpa using hfront
    · rw [h]
      exact Follows.held (x := { x with
          engine := ((b.start t).run none bound t x.engine).machine
          holder := some (b.serial, ((b.start t).run none bound t x.engine).activity)
          line := rest }) rfl served reached obeys linked'

theorem Follows.work (hP : P.Governs link) (bound : Option Instant)
    (hmeets : ∀ b ∈ issued, Meets P spec b) (h : Follows P link spec s₀ issued x) :
    Follows P link spec s₀ issued (x.work bound).1 := by
  cases h with
  | @free _ ended s holder served linked =>
    rw [work_free bound holder]
    exact lend_follows hP bound x.line holder served linked fun b hb =>
      hmeets b (by simp [waiting, hb])
  | @held _ ended s t b a holder served reached obeys linked =>
    obtain ⟨u, reached', linked', obeys'⟩ := hP.resume none bound x.now obeys linked
    obtain ⟨o, ha, h⟩ | ⟨-, h⟩ := work_held bound holder
    · rw [ha] at obeys'
      rw [h]
      have hrest :=
        lend_follows hP bound x.line (t := (a.run none bound x.now x.engine).now) (x := { x with
          engine := (a.run none bound x.now x.engine).machine
          holder := none
          endings := x.endings ++ [⟨b.serial, o, (a.run none bound x.now x.engine).now⟩] })
        rfl (served.next rfl obeys') linked' fun c hc => hmeets c (by simp [waiting, hc])
      simpa [waiting] using hrest
    · rw [h]
      exact Follows.held (x := { x with
          engine := (a.run none bound x.now x.engine).machine
          holder := some (b.serial, (a.run none bound x.now x.engine).activity) })
        rfl served (reached.trans reached') obeys' linked'

/-! ## Advancing -/

/-- An announcement that the bookkeeping does not notice. -/
def Discreet (link : S → σ → Prop) (announcement : Program I Unit) : Prop :=
  ∀ s m now, link s m → link s (announcement.run none none now m).machine

/-- What leaves the state as it is leaves it linked. -/
theorem discreet_of_obeys (hP : P.Governs link) {announcement : Program I Unit}
    (h : ∀ s, announcement.Obeys P (fun _ t => t = s) s) : Discreet link announcement := by
  intro s m now hs
  obtain ⟨_, hlink, rfl⟩ := (h s).finish hP hs now
  rw [Program.run_eq_finish]
  exact hlink

/-- The first part of `advance`: a close that has not announced itself does. -/
def prepare (x : Schedule I σ) : Schedule I σ :=
  match x.closing with
  | some ⟨_, _, none⟩ => (x.work (some x.now)).1.announce
  | _ => x

/-- The last part of `advance`, at the instant `t`: a close whose gate is open gets in line. -/
def takeIn (bound : Option Instant) (x : Schedule I σ) (t : Instant) : Schedule I σ :=
  match x.closing with
  | some ⟨body, _, some gate⟩ =>
    if gate.all x.hasEnded then
      let x := { x with closing := none, line := x.line ++ [body] }
      if x.holder.isNone then (x.lend bound t x.line).1 else x
    else x
  | _ => x

theorem advance_eq (bound : Option Instant) (x : Schedule I σ) :
    x.advance bound = takeIn bound (x.prepare.work bound).1 (x.prepare.work bound).2 := rfl

theorem Follows.announce (h : Follows P link spec s₀ issued x)
    (hquiet : ∀ c, x.closing = some c → Discreet link c.announcement) :
    Follows P link spec s₀ issued x.announce := by
  unfold Schedule.announce
  split
  · next body announcement hc =>
    exact h.carry rfl rfl (by simp [waiting, hc]) fun s => hquiet _ hc s x.engine x.now
  · exact h

theorem Follows.prepare (hP : P.Governs link) (hmeets : ∀ b ∈ issued, Meets P spec b)
    (hquiet : ∀ c, x.closing = some c → Discreet link c.announcement)
    (h : Follows P link spec s₀ issued x) : Follows P link spec s₀ issued x.prepare := by
  unfold Schedule.prepare
  split
  · refine (h.work hP _ hmeets).announce fun c hc => hquiet c ?_
    rwa [(work_sameDesk _ x).closing] at hc
  · exact h

theorem Follows.takeIn (hP : P.Governs link) (bound : Option Instant) (t : Instant)
    (hmeets : ∀ b ∈ issued, Meets P spec b) (h : Follows P link spec s₀ issued x) :
    Follows P link spec s₀ issued (x.takeIn bound t) := by
  unfold Schedule.takeIn
  split
  · next body announcement gate hc =>
    split
    · have hline := h.carry (y := { x with closing := none, line := x.line ++ [body] }) rfl rfl
        (by simp [waiting, hc]) fun s => id
      dsimp only
      split
      · next hfree =>
        cases hline with
        | free holder served linked =>
          exact lend_follows hP bound _ holder served linked
            fun b hb => hmeets b (List.mem_append_right _ (List.mem_append_left _ hb))
        | held holder => simp_all
      · exact hline
    · exact h
  · exact h

/-- **Advancing keeps to the order of issue**, whatever its bound. -/
theorem Follows.advance (hP : P.Governs link) (bound : Option Instant)
    (hmeets : ∀ b ∈ issued, Meets P spec b)
    (hquiet : ∀ c, x.closing = some c → Discreet link c.announcement)
    (h : Follows P link spec s₀ issued x) : Follows P link spec s₀ issued (x.advance bound) := by
  rw [advance_eq]
  exact ((h.prepare hP hmeets hquiet).work hP bound hmeets).takeIn hP bound _ hmeets

end Stairway.Schedule
