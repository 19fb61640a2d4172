import Stairway.Proofs.Controller.Marks
import Stairway.Stop

/-!
# A stop is found once

A close asks for a stop before it waits for anything. The slot keeps the request until somebody
looks (`HasSlot`), so the first migration that looks finds it and begins no step any more. It has
taken the request out of the slot, and migrations that come later find nothing. `HeedsStop` says
which marks there can be once a stop has been asked for, and `stops_once` that these are the marks
of every run of operations and a close.

What was under way when the stop was asked for can be told from the last mark before
(`stepInFlight`): the step for which somebody has looked already, and nothing where an operation
still waits for the lock. The marks begin with that, and no other step is begun before the look that
finds the stop (`Phase.split_left`).

How many operations have started can be told from the marks (`Phase.busy_le`), and how many there
are and how many have ended from the schedule (`Follows.led`). So no step is begun any more where
only one operation is left (`HeedsStop.alone`).
-/

namespace Stairway

variable {I : Interface} {σ : Type}

/-! ## Slots -/

theorem StopSlot.request_pending (s : StopSlot) (h : s.listening = true) :
    s.request.2.pending = true := by
  unfold request
  cases hs : s.pending <;> simp [h, hs]

/-- The state of a machine shows a slot for stops: a request that asks for one goes into it, a look
takes out what is there, and nothing else changes it. -/
structure HasSlot (I : Interface) [Marked I] [Machine I σ] (slot : σ → StopSlot) : Prop where
  arrive : ∀ (r : I.Request) now m, slot (Machine.arrive r now m).2 = slot m
  asked : ∀ (r : I.Request) now m, Marked.asks r = true →
    slot (Machine.answer r now m).2 = (slot m).request.2 ∧
      Marked.mark r (Machine.answer r now m).1 = none
  looked : ∀ (r : I.Request) now m found,
    Marked.mark r (Machine.answer r now m).1 = some (.looked found) →
    (found, slot (Machine.answer r now m).2) = (slot m).take
  other : ∀ (r : I.Request) now m, Marked.asks r = false →
    (∀ l ∈ Marked.mark r (Machine.answer r now m).1, l.isLook = false) →
    slot (Machine.answer r now m).2 = slot m

namespace HasSlot

variable [Marked I] [Machine I σ] {slot : σ → StopSlot}

theorem noted (h : HasSlot I slot) : HasSlot (Noted I) fun m : Noting σ => slot m.machine where
  arrive
    | .inl r, now, m => h.arrive r now m.machine
    | .inr _, _, _ => rfl
  asked
    | .inl r, now, m => h.asked r now m.machine
    | .inr _, _, _ => nofun
  looked
    | .inl r, now, m => h.looked r now m.machine
    | .inr _, _, _ => nofun
  other
    | .inl r, now, m => h.other r now m.machine
    | .inr _, _, _ => fun _ _ => rfl

theorem listening (h : HasSlot I slot) (r : I.Request) (now : Instant) (m : σ) :
    (slot (Machine.answer r now m).2).listening = (slot m).listening := by
  cases hasks : Marked.asks r with
  | true =>
    rw [(h.asked r now m hasks).1]
    unfold StopSlot.request
    split <;> rfl
  | false =>
    by_cases hlook : ∃ found, Marked.mark r (Machine.answer r now m).1 = some (.looked found)
    · obtain ⟨found, hfound⟩ := hlook
      exact congrArg (·.2.listening) (h.looked r now m found hfound)
    · refine congrArg StopSlot.listening (h.other r now m hasks fun l hl => ?_)
      cases l with
      | looked found => exact absurd ⟨found, hl⟩ hlook
      | call | begun | completed => rfl

end HasSlot

/-- The first look after a stop was asked for has found it, and if nobody has looked it is in the
slot. -/
structure Kept (slot : σ → StopSlot) (m : Traced σ) : Prop where
  listening : (slot m.machine).listening = true
  within : ∀ k, m.asked = some k → k ≤ m.marks.length
  found : ∀ k l, m.asked = some k → (m.marks.drop k).find? (·.isLook) = some l → l = .looked true
  pending : ∀ k, m.asked = some k → (m.marks.drop k).find? (·.isLook) = none →
    (slot m.machine).pending = true

namespace Kept

variable {slot : σ → StopSlot} {m : Traced σ} {machine : σ}

theorem ask (marks : List Mark) (hlistening : (slot machine).listening = true)
    (hpending : (slot machine).pending = true) : Kept slot ⟨machine, marks, some marks.length⟩ := by
  refine ⟨hlistening, ?_, ?_, fun _ _ _ => hpending⟩
  · rintro _ ⟨⟩
    exact Nat.le_refl _
  · rintro _ l ⟨⟩ hl
    rw [List.drop_length] at hl
    cases hl

theorem other (h : Kept slot m) (hslot : slot machine = slot m.machine) :
    Kept slot { m with machine } :=
  ⟨hslot ▸ h.listening, h.within, h.found, hslot ▸ h.pending⟩

/-- One mark more: a look tells what was in the slot, and any other mark leaves it there. -/
theorem snoc (h : Kept slot m) {l : Mark} (hlistening : (slot machine).listening = true)
    (hlook : ∀ found, l = .looked found → found = (slot m.machine).pending)
    (hother : l.isLook = false → slot machine = slot m.machine) :
    Kept slot ⟨machine, m.marks ++ [l], m.asked⟩ := by
  have hfind : ∀ k, m.asked = some k → ((m.marks ++ [l]).drop k).find? (·.isLook) =
      ((m.marks.drop k).find? (·.isLook)).or (if l.isLook then some l else none) := by
    intro k hk
    rw [List.drop_append_of_le_length (h.within k hk), List.find?_append, List.find?_singleton]
  refine ⟨hlistening, fun k hk => ?_, fun k first hk hfirst => ?_, fun k hk hnone => ?_⟩
  · exact Nat.le_trans (h.within k hk) (by simp)
  · rw [hfind k hk, Option.or_eq_some_iff] at hfirst
    rcases hfirst with hold | ⟨hold, hnew⟩
    · exact h.found k first hk hold
    · split at hnew
      · next hl =>
        -- the first look of all: it finds the stop, which nobody has taken
        obtain rfl := Option.some.inj hnew
        cases l with
        | looked found => rw [hlook found rfl, h.pending k hk hold]
        | call | begun | completed => cases hl
      · cases hnew
  · rw [hfind k hk, Option.or_eq_none_iff] at hnone
    obtain ⟨hold, hnew⟩ := hnone
    rw [hother (by simpa using hnew)]
    exact h.pending k hk hold

end Kept

/-- What stays true of a machine, whatever is asked of it. -/
structure Machine.Keeps (I : Interface) [Machine I σ] (K : σ → Prop) : Prop where
  arrive : ∀ (r : I.Request) now m, K m → K (Machine.arrive r now m).2
  answer : ∀ (r : I.Request) now m, K m → K (Machine.answer r now m).2

section Keeps

variable [Marked I] [Machine I σ] {slot : σ → StopSlot}

/-- **An answer keeps the stop** until somebody has looked. -/
theorem HasSlot.kept_answer (h : HasSlot I slot) (r : I.Request) (now : Instant) {m : Traced σ}
    (hm : Kept slot m) : Kept slot (Machine.answer r now m).2 := by
  have hlistening : (slot (Machine.answer r now m.machine).2).listening = true :=
    (h.listening r now m.machine).trans hm.listening
  cases hasks : Marked.asks r with
  | true =>
    obtain ⟨hslot, hmark⟩ := h.asked r now m.machine hasks
    have hanswer : (Machine.answer r now m).2 =
        ⟨(Machine.answer r now m.machine).2, m.marks, some m.marks.length⟩ := by
      simp [Machine.answer, hasks, hmark]
    rw [hanswer]
    refine .ask m.marks hlistening ?_
    rw [hslot]
    exact (slot m.machine).request_pending hm.listening
  | false =>
    have hother := h.other r now m.machine hasks
    cases hmark : Marked.mark r (Machine.answer r now m.machine).1 with
    | none =>
      have hanswer : (Machine.answer r now m).2 =
          { m with machine := (Machine.answer r now m.machine).2 } := by
        simp [Machine.answer, hasks, hmark]
      rw [hanswer]
      exact hm.other (hother (by rw [hmark]; nofun))
    | some l =>
      have hanswer : (Machine.answer r now m).2 =
          ⟨(Machine.answer r now m.machine).2, m.marks ++ [l], m.asked⟩ := by
        simp [Machine.answer, hasks, hmark]
      rw [hanswer]
      refine hm.snoc hlistening ?_ ?_
      · rintro found rfl
        exact congrArg Prod.fst (h.looked r now m.machine found hmark)
      · intro hl
        refine hother ?_
        rw [hmark]
        rintro _ ⟨⟩
        exact hl

theorem HasSlot.keeps (h : HasSlot I slot) : Machine.Keeps I (Kept slot) where
  arrive r now _ hm := hm.other (h.arrive r now _)
  answer r now _ hm := h.kept_answer r now hm

theorem marking_governs {K : Traced σ → Prop} (hK : Machine.Keeps I K) :
    (marking I).Governs fun s (m : Traced σ) => m.marks = s ∧ K m where
  arrive := by
    rintro _ m r now ⟨rfl, hm⟩ -
    exact ⟨rfl, hK.arrive r now m hm⟩
  answer := by
    rintro _ m r now ⟨rfl, hm⟩ -
    exact ⟨_, rfl, rfl, hK.answer r now m hm⟩

end Keeps

/-! ## Marks once a stop was asked for -/

/-- What is left of the step in flight, told from the last mark: a look that has found no stop lets
one step begin, and a step that has begun may still be completed. -/
def stepInFlight (marks : List Mark) : List Mark :=
  match marks.getLast? with
  | some (.looked false) => [.begun, .completed]
  | some .begun => [.completed]
  | _ => []

/-- Which marks there can be after a stop was asked for, where `left` was left of the step in flight
and so many operations had not ended. What is done of that step comes first, and no step is begun
besides. The first look finds the stop, and its operation makes no mark any more but by the calls at
its end. Operations that start later, at most one fewer than had not ended, may go on. -/
inductive HeedsStop (left : List Mark) (unfinished : Nat) (marks : List Mark) : Prop where
  | unseen {done calls : List Mark} (split : marks = done ++ calls) (inFlight : done <+: left)
    (begunNone : ∀ m ∈ calls, ∃ n, m = .call n)
  | seen {done calls rest later : List Mark}
    (split : marks = done ++ (calls ++ .looked true :: (rest ++ later))) (inFlight : done <+: left)
    (begunNone : ∀ m ∈ calls, ∃ n, m = .call n)
    (stopped : ∀ m ∈ rest, ∃ n, m = .call n ∧ n ≠ .version)
    (others : later = [] ∨ ∃ more, later = .start :: more)
    (fewer : starts later < unfinished)

/-- A stop has been asked for, behind so many marks at least, and has been heeded since, where so
many operations had not ended. -/
def Traced.Heeds (m : Traced σ) (past unfinished : Nat) : Prop :=
  ∃ k, m.asked = some k ∧ past ≤ k ∧
    HeedsStop (stepInFlight (m.marks.take k)) unfinished (m.marks.drop k)

namespace Phase

variable {φ ψ : Phase} {marks : List Mark}

/-- Whether an operation is under way. -/
def busy : Phase → Nat
  | idle => 0
  | _ => 1

/-- What is left of the step in flight. -/
def left : Phase → List Mark
  | going => [.begun, .completed]
  | running => [.completed]
  | _ => []

/-- The phases in which a step is in flight are told by the last mark. -/
theorem left_eq (h : idle.after marks = some φ) : φ.left = stepInFlight marks := by
  rcases List.eq_nil_or_concat marks with rfl | ⟨front, m, rfl⟩
  · cases h
    rfl
  · rw [List.concat_eq_append] at h ⊢
    rw [after_append, Option.bind_eq_some_iff] at h
    obtain ⟨χ, -, hm⟩ := h
    rw [after_cons, Option.bind_eq_some_iff] at hm
    obtain ⟨_, hm, ⟨⟩⟩ := hm
    unfold stepInFlight
    rw [List.getLast?_concat]
    cases m with
    | call n => cases χ <;> cases n <;> cases hm <;> rfl
    | looked found => cases χ <;> cases hm <;> cases found <;> rfl
    | begun | completed =>
      cases χ <;> cases hm
      rfl

theorem hear_call {n : Note} (h : φ.hear (.call n) = some ψ) : ψ.left = [] := by
  cases φ <;> cases n <;> cases h <;> rfl

theorem busy_le_one (φ : Phase) : φ.busy ≤ 1 := by cases φ <;> decide

/-- Only an operation that starts takes the engine. -/
theorem hear_busy {m : Mark} (h : φ.hear m = some ψ) :
    ψ.busy ≤ φ.busy + if m = .start then 1 else 0 := by
  cases φ with
  | idle =>
    rcases m with n | _ | _ | _
    · cases n <;> cases h <;> simp [busy]
    · cases h
    · cases h
    · cases h
  | _ => exact Nat.le_trans ψ.busy_le_one (Nat.le_add_right _ _)

theorem busy_le (h : φ.after marks = some ψ) : ψ.busy ≤ φ.busy + starts marks := by
  induction marks generalizing φ with
  | nil =>
    cases h
    exact Nat.le_add_right _ _
  | cons m rest ih =>
    rw [after_cons, Option.bind_eq_some_iff] at h
    obtain ⟨χ, hm, hrest⟩ := h
    have hfirst := hear_busy hm
    have hlater := ih hrest
    unfold starts at hlater ⊢
    rw [List.count_cons]
    simp only [beq_iff_eq]
    omega

/-- **Without a look no step is begun** but the one in flight: what is done of that comes first, and
then there are only calls. -/
theorem split_left (h : φ.after marks = some ψ) (hlooks : ∀ m ∈ marks, m.isLook = false) :
    ∃ done calls, marks = done ++ calls ∧ done <+: φ.left ∧ ∀ m ∈ calls, ∃ n, m = .call n := by
  induction marks generalizing φ with
  | nil => exact ⟨[], [], rfl, List.nil_prefix, nofun⟩
  | cons m rest ih =>
    rw [after_cons, Option.bind_eq_some_iff] at h
    obtain ⟨χ, hm, hrest⟩ := h
    obtain ⟨done, calls, rfl, hdone, hcalls⟩ :=
      ih hrest fun m' hm' => hlooks m' (List.mem_cons_of_mem m hm')
    -- a call ends the step; the marks of a step each leave one less
    cases m with
    | call n =>
      rw [hear_call hm, List.prefix_nil] at hdone
      subst hdone
      refine ⟨[], .call n :: calls, rfl, List.nil_prefix, ?_⟩
      exact List.forall_mem_cons.2 ⟨⟨n, rfl⟩, hcalls⟩
    | looked found => cases hlooks _ List.mem_cons_self
    | begun =>
      cases φ <;> cases hm
      exact ⟨.begun :: done, calls, rfl, List.cons_prefix_cons.2 ⟨rfl, hdone⟩, hcalls⟩
    | completed =>
      cases φ <;> cases hm
      exact ⟨.completed :: done, calls, rfl, List.cons_prefix_cons.2 ⟨rfl, hdone⟩, hcalls⟩

/-- Where a stop has been found nothing is marked but calls, until the next operation starts. -/
theorem call_of_halted (hφ : φ = .halted ∨ φ = .idle) (h : φ.after marks = some ψ)
    (hstart : Mark.start ∉ marks) : ∀ m ∈ marks, ∃ n, m = .call n ∧ n ≠ .version := by
  induction marks generalizing φ with
  | nil => nofun
  | cons m rest ih =>
    rw [after_cons, Option.bind_eq_some_iff] at h
    obtain ⟨χ, hm, hrest⟩ := h
    have hne : m ≠ .start := fun heq => hstart (heq ▸ List.mem_cons_self)
    have hcall : (∃ n, m = .call n ∧ n ≠ .version) ∧ χ = .idle := by
      cases m with
      | call n =>
        refine ⟨⟨n, rfl, fun heq => hne (congrArg Mark.call heq)⟩, ?_⟩
        rcases hφ with rfl | rfl
        · cases n <;> cases hm
          rfl
        · cases n <;> cases hm
          · exact absurd rfl hne
          all_goals rfl
      | looked | begun | completed => rcases hφ with rfl | rfl <;> cases hm
    intro m' hm'
    rcases List.mem_cons.1 hm' with rfl | hm'
    · exact hcall.1
    · exact ih (.inr hcall.2) hrest (fun hmem => hstart (List.mem_cons_of_mem m hmem)) m' hm'

end Phase

/-- The marks after a stop has been found: those of the operation that has found it, and then those
of operations that start later. -/
theorem Phase.split_halted {marks : List Mark} {ψ : Phase} (h : Phase.halted.after marks = some ψ) :
    ∃ rest later, marks = rest ++ later ∧ (∀ m ∈ rest, ∃ n, m = .call n ∧ n ≠ .version) ∧
      (later = [] ∨ ∃ more, later = .start :: more) ∧ starts later ≤ starts marks := by
  cases hnext : marks.find? (· == .start) with
  | none =>
    have hnone : Mark.start ∉ marks := fun hmem => by simpa using List.find?_eq_none.1 hnext _ hmem
    exact ⟨marks, [], (List.append_nil _).symm, call_of_halted (.inl rfl) h hnone, .inl rfl,
      Nat.zero_le _⟩
  | some m =>
    obtain ⟨hm, rest, later, rfl, hrest⟩ := List.find?_eq_some_iff_append.1 hnext
    obtain rfl : m = .start := by simpa using hm
    have hnone : Mark.start ∉ rest := fun hmem => by simpa using hrest _ hmem
    rw [Phase.after_append, Option.bind_eq_some_iff] at h
    obtain ⟨_, hafter, -⟩ := h
    exact ⟨rest, .start :: later, rfl, call_of_halted (.inl rfl) hafter hnone, .inr ⟨later, rfl⟩,
      by simp [starts]⟩

/-- **The marks after a stop was asked for**, told from the marks before, how many operations there
are, and how many have ended before. -/
theorem heedsStop {front back : List Mark} {φ ψ : Phase} {ended n : Nat}
    (hfront : Phase.idle.after front = some φ) (hback : φ.after back = some ψ)
    (hended : ended + φ.busy ≤ starts front) (hn : starts front + starts back ≤ n)
    (hfound : ∀ l, back.find? (·.isLook) = some l → l = .looked true) :
    HeedsStop (stepInFlight front) (n - ended) back := by
  rw [← Phase.left_eq hfront]
  cases hlook : back.find? (·.isLook) with
  | none =>
    have hlooks : ∀ m ∈ back, m.isLook = false := by simpa using hlook
    obtain ⟨done, calls, rfl, hdone, hcalls⟩ := Phase.split_left hback hlooks
    exact .unseen rfl hdone hcalls
  | some l =>
    obtain rfl := hfound l hlook
    obtain ⟨-, before, tail, rfl, hbefore⟩ := List.find?_eq_some_iff_append.1 hlook
    have hlooks : ∀ m ∈ before, m.isLook = false := by simpa using hbefore
    rw [Phase.after_append, Option.bind_eq_some_iff] at hback
    obtain ⟨χ, hmid, hrest⟩ := hback
    rw [Phase.after_cons, Option.bind_eq_some_iff] at hrest
    obtain ⟨ω, hhear, htail⟩ := hrest
    have hfinds : χ.busy = 1 ∧ ω = .halted := by
      cases χ <;> cases hhear <;> exact ⟨rfl, rfl⟩
    obtain ⟨hbusy, rfl⟩ := hfinds
    have hstarted := Phase.busy_le hmid
    obtain ⟨done, calls, rfl, hdone, hcalls⟩ := Phase.split_left hmid hlooks
    obtain ⟨rest, later, rfl, hstopped, hothers, hlater⟩ := Phase.split_halted htail
    refine .seen (List.append_assoc _ _ _) hdone hcalls hstopped hothers ?_
    -- the operation that looks is not among those that start later
    have hlook : starts (.looked true :: (rest ++ later)) = starts (rest ++ later) := by
      simp [starts]
    rw [starts_append, hlook] at hn
    omega

theorem filter_calls {calls : List Mark} (h : ∀ m ∈ calls, ∃ n, m = .call n) :
    calls.filter (·.isOfStep) = [] := by
  rw [List.filter_eq_nil_iff]
  intro m hm
  obtain ⟨n, rfl⟩ := h m hm
  exact Bool.false_ne_true

theorem isOfStep_of_inFlight (front : List Mark) : ∀ m ∈ stepInFlight front, m.isOfStep = true := by
  unfold stepInFlight
  split <;> decide

theorem filter_inFlight {done front : List Mark} (h : done <+: stepInFlight front) :
    done.filter (·.isOfStep) = done :=
  List.filter_eq_self.2 fun m hm => isOfStep_of_inFlight front m (h.subset hm)

/-- Where at most one operation has not ended, there is no more than what is left of the step in
flight. -/
theorem HeedsStop.alone {front marks : List Mark} {unfinished : Nat}
    (h : HeedsStop (stepInFlight front) unfinished marks) (hone : unfinished ≤ 1) :
    marks.filter (·.isOfStep) <+: stepInFlight front := by
  cases h with
  | unseen split inFlight begunNone =>
    rwa [split, List.filter_append, filter_inFlight inFlight, filter_calls begunNone,
      List.append_nil]
  | @seen done calls rest later split inFlight begunNone stopped others fewer =>
    have hlater : later = [] := by
      rcases others with rfl | ⟨more, rfl⟩
      · rfl
      · have hstarts : starts (.start :: more) = starts more + 1 := List.count_cons_self
        omega
    have hrest : ∀ m ∈ rest, ∃ n, m = .call n := fun m hm =>
      (stopped m hm).imp fun _ => And.left
    rwa [split, hlater, List.append_nil, List.filter_append, List.filter_append,
      List.filter_cons_of_neg Bool.false_ne_true, filter_calls hrest, filter_calls begunNone,
      filter_inFlight inFlight, List.append_nil, List.append_nil]

/-! ## A close that announces itself -/

namespace Schedule

section Announcing

variable {S : Type} {P : Protocol I S} {link link' : S → σ → Prop}
  {spec : Body I → S → Outcome (Except Failure Unit) → S → Prop} {s₀ : S} {issued : List (Body I)}
  {x y : Schedule I σ}

variable [Machine I σ]

theorem prepare_prepare (x : Schedule I σ) : x.prepare.prepare = x.prepare := by
  have hclosing := prepare_closing x
  rw [prepare]
  split
  · next body announcement hc =>
    rw [hc] at hclosing
    cases hx : x.closing with
    | none =>
      rw [hx] at hclosing
      cases hclosing
    | some c =>
      rw [hx] at hclosing
      cases hclosing
  · rfl

theorem advance_prepare (bound : Option Instant) (x : Schedule I σ) :
    x.prepare.advance bound = x.advance bound := by
  rw [advance_eq, advance_eq, prepare_prepare]

/-- A close that has not announced itself does so first, once those in line have begun. -/
theorem prepare_of_closing {c : Closing I} (hc : x.closing = some c) (hgate : c.gate = none) :
    x.prepare = { (x.work (some x.now)).1 with
      engine := (c.announcement.run none none (x.work (some x.now)).1.now
        (x.work (some x.now)).1.engine).machine
      closing := some { c with gate := some x.armed }
      armed := none } := by
  obtain ⟨body, announcement, gate⟩ := c
  obtain rfl : gate = none := hgate
  have hdesk := work_sameDesk (some x.now) x
  unfold prepare
  rw [hc]
  unfold announce
  rw [hdesk.closing, hc, ← hdesk.armed]

/-- **Once a close has announced itself** the engine is linked as the announcement leaves it. -/
theorem Orderly.announced (hP : P.Governs link) (hP' : P.Governs link')
    (h : Orderly P link spec s₀ issued x) {c : Closing I} (hc : x.closing = some c)
    (hgate : c.gate = none)
    (hannounced : ∀ s m now, link s m → link' s (c.announcement.run none none now m).machine)
    (hquiet : Discreet link' c.announcement) (bound : Option Instant) :
    Orderly P link' spec s₀ issued (x.advance bound) := by
  obtain ⟨body, announcement, gate⟩ := c
  obtain rfl : gate = none := hgate
  have hdesk := (work_sameDesk (some x.now) x).closing.trans hc
  have hprepared : Orderly P link' spec s₀ issued x.prepare := by
    rw [prepare_of_closing hc rfl]
    refine ⟨?_, h.meets, h.numbered, ?_, ?_, nofun⟩
    · refine (h.follows.work hP (some x.now) h.meets).carry rfl rfl ?_ fun s hs =>
        hannounced s _ _ hs
      simp [waiting, hdesk]
    · rintro _ ⟨⟩
      exact hquiet
    · intro k hk
      have hbehind := h.gateBehind k (by simpa [gated, hc] using hk)
      simpa [hc] using hbehind
  rw [← advance_prepare]
  exact hprepared.advance hP' bound

end Announcing

/-! ## Bodies and their marks -/

section Bodies

variable [Marked I] {τ : Type} [Machine I τ] {link : List Mark → Traced τ → Prop} {n : Nat}

/-- Which marks bodies make: each of those with numbers below `n` is an operation, and the one after
them a close. -/
def Traces (n : Nat) (b : Body I) (s : List Mark) (_ : Outcome (Except Failure Unit))
    (t : List Mark) : Prop :=
  Led s .idle (if b.serial < n then 1 else 0) t

omit [Marked I] in
theorem led_of_served {bodies rest : List (Body I)} {endings : List Ending} {s : List Mark}
    (h : Served (Traces n) [] bodies endings s) (hn : Numbered (bodies ++ rest)) :
    Led [] .idle (min bodies.length n) s := by
  induction h generalizing rest with
  | none => simpa using Led.refl []
  | @next bodies endings s t b e before serial effect ih =>
    rw [List.append_assoc] at hn
    have hserial : b.serial = bodies.length := hn.serial_at
    have hfront := (ih hn).trans effect
    have hcount : min bodies.length n + (if b.serial < n then 1 else 0) =
        min (bodies ++ [b]).length n := by
      rw [hserial, List.length_append, List.length_singleton]
      split <;> omega
    rwa [hcount] at hfront

/-- **How many operations have started**, told from the schedule: those that have ended and the one
that has the engine, and no more than there are. -/
theorem Follows.led {x : Schedule I (Traced τ)} {issued : List (Body I)}
    (h : Follows (marking I) link (Traces n) [] issued x) (hn : Numbered issued)
    (hP : (marking I).Governs link) (hlink : ∀ s m, link s m → m.marks = s) :
    ∃ φ, Phase.idle.after x.engine.marks = some φ ∧
      min x.endings.length n + φ.busy ≤ starts x.engine.marks ∧ starts x.engine.marks ≤ n := by
  cases h with
  | @free _ ended s holder served linked =>
    have hlength : x.endings.length = ended.length := by
      simpa using congrArg List.length served.serials
    obtain ⟨block, rfl, hblock, hstarts⟩ := led_of_served served hn
    rw [hlink _ _ linked, hlength, hstarts]
    exact ⟨.idle, hblock, Nat.le_refl _, Nat.min_le_right _ _⟩
  | @held _ ended s t b a holder served reached obeys linked =>
    have hlength : x.endings.length = ended.length := by
      simpa using congrArg List.length served.serials
    have hserial := hn.serial_at
    obtain ⟨_, rfl, hfront, hstarts⟩ := led_of_served served hn
    -- the body is part of the way through the block of marks that it will have made at its end
    obtain ⟨o, u, hends, block, rfl, hblock, hone⟩ := hP.conclude obeys linked
    obtain ⟨more, rfl⟩ := marking_extends reached
    obtain ⟨rest, hrest⟩ := marking_extends hends
    obtain rfl : block = more ++ rest :=
      List.append_cancel_left (hrest.symm.trans (List.append_assoc _ _ _))
    rw [Phase.after_append, Option.bind_eq_some_iff] at hblock
    obtain ⟨φ, hmore, -⟩ := hblock
    have hbusy : φ.busy ≤ 0 + starts more := Phase.busy_le hmore
    refine ⟨φ, ?_, ?_, ?_⟩
    · rw [hlink _ _ linked, Phase.after_append, hfront]
      exact hmore
    · rw [hlink _ _ linked, hlength, starts_append]
      omega
    · rw [hlink _ _ linked, starts_append]
      rw [starts_append, hserial] at hone
      split at hone <;> omega

end Bodies

/-! ## A close after operations -/

section Closing

variable [Marked I] [Machine I σ] {slot : σ → StopSlot}

/-- What stays true once `past` has been marked. -/
structure Since (slot : σ → StopSlot) (past : List Mark) (m : Traced σ) :
    Prop extends Kept slot m where
  prior : past <+: m.marks

/-- What stays true once a stop has been asked for after that. -/
structure AskedSince (slot : σ → StopSlot) (past : List Mark) (m : Traced σ) : Prop extends
    Since slot past m where
  asked : ∃ k, m.asked = some k ∧ past.length ≤ k

theorem since_keeps (h : HasSlot I slot) (past : List Mark) :
    Machine.Keeps I (Since slot past) where
  arrive r now m hm := ⟨h.keeps.arrive r now m hm.toKept, hm.prior⟩
  answer r now m hm := ⟨h.keeps.answer r now m hm.toKept, hm.prior.trans (List.prefix_append _ _)⟩

theorem askedSince_keeps (h : HasSlot I slot) (past : List Mark) :
    Machine.Keeps I (AskedSince slot past) where
  arrive r now m hm := ⟨(since_keeps h past).arrive r now m hm.toSince, hm.asked⟩
  answer r now m hm := by
    refine ⟨(since_keeps h past).answer r now m hm.toSince, ?_⟩
    cases hasks : Marked.asks r with
    | true => exact ⟨m.marks.length, by simp [Machine.answer, hasks], hm.prior.length_le⟩
    | false =>
      have hsame : (Machine.answer r now m).2.asked = m.asked := by simp [Machine.answer, hasks]
      rw [hsame]
      exact hm.asked

/-- **The stop is heeded** wherever a schedule has come that has gone through at most `n`
operations. -/
theorem heedsStop_of_follows {τ : Type} [Machine I τ] {slot : τ → StopSlot}
    {x : Schedule I (Traced τ)} {issued : List (Body I)} {n ended : Nat} {φ : Phase}
    {past : List Mark} (hslot : HasSlot I slot) (hn : Numbered issued)
    (hpast : Phase.idle.after past = some φ) (hended : ended + φ.busy ≤ starts past)
    (h : Follows (marking I) (fun s m => m.marks = s ∧ AskedSince slot past m)
      (Traces n) [] issued x) :
    x.engine.Heeds past.length (n - ended) := by
  have hlinked : AskedSince slot past x.engine := by
    cases h with
    | free holder served linked => exact linked.2
    | held holder served reached obeys linked => exact linked.2
  obtain ⟨ψ, hafter, -, hle⟩ := h.led hn (marking_governs (askedSince_keeps hslot past))
    fun _ _ hl => hl.1
  obtain ⟨k, hk, hlater⟩ := hlinked.asked
  obtain ⟨rest, hrest⟩ := hlinked.prior
  refine ⟨k, hk, hlater, ?_⟩
  -- the marks up to the request begin with those that were there before
  have htake : x.engine.marks.take k = past ++ rest.take (k - past.length) := by
    rw [← hrest, List.take_append, List.take_of_length_le hlater]
  have hsplit := List.take_append_drop k x.engine.marks
  rw [← hsplit, htake, List.append_assoc, Phase.after_append, hpast, Option.bind_some,
    Phase.after_append, Option.bind_eq_some_iff] at hafter
  obtain ⟨χ, hmid, hback⟩ := hafter
  have hstarted := Phase.busy_le hmid
  have hall : starts (past ++ rest.take (k - past.length)) +
      starts (x.engine.marks.drop k) ≤ n := by
    rwa [← htake, ← starts_append, hsplit]
  rw [htake]
  refine heedsStop ?_ hback ?_ hall fun l hl => hlinked.found k l hk hl
  · rw [Phase.after_append, hpast]
    exact hmid
  · rw [starts_append]
    omega

end Closing

variable [Marked I] [Machine I σ]

/-- What is true of a close that is called in the schedule `before`, with `n` operations issued. The
marks are read off `call`, which is `run` otherwise. -/
structure StopsOnce (n : Nat) (run : Option (Except Failure Unit) × Schedule I σ)
    (before : Schedule (Noted I) (Traced (Noting σ)))
    (call : Option (Except Failure Unit) × Schedule (Noted I) (Traced (Noting σ))) : Prop where
  /-- To keep marks changes nothing. -/
  same : run = (call.1, (call.2.map Traced.machine).erase)
  /-- The close has asked for a stop, and at every later instant it has been heeded. -/
  heeds : ∀ t,
    (call.2.elapseTo t).engine.Heeds before.engine.marks.length (n - before.endings.length)
  /-- Where at most one operation had not ended, there is no more than what was left of the step in
  flight when the stop was asked for. -/
  alone : n - before.endings.length ≤ 1 → ∀ t k, (call.2.elapseTo t).engine.asked = some k →
    ((call.2.elapseTo t).engine.marks.drop k).filter (·.isOfStep) <+:
      stepInFlight ((call.2.elapseTo t).engine.marks.take k)

variable {e : Engine I} {slot : σ → StopSlot}

/-- The schedule in which a close is called after some operations, with the marks so far. -/
def beforeClose (e : Engine I) (m : σ) (now : Instant) (errands : List Errand)
    (pause : Option Duration) :
    Schedule (Noted I) (Traced (Noting σ)) :=
  (({ engine := { machine := ⟨m, []⟩ }, now := now } : Schedule (Noted I)
    (Traced (Noting σ))).follow e.noted
    errands).2.rest pause

section Ready

variable {x : Schedule (Noted I) (Traced (Noting σ))} {bodies : List (Body (Noted I))}
  {slot : Noting σ → StopSlot}

/-- A close that is called between two calls asks for a stop before anything else happens. -/
theorem Ready.asked
    (hx : Ready (marking (Noted I)) (fun s m => m.marks = s ∧ Kept slot m) (Traces bodies.length) []
      bodies x) (hslot : HasSlot (Noted I) slot) (hpaced : e.Paced)
    (hasks : ∀ now (m : Traced (Noting σ)),
      (e.noted.announceClose.run none none now m).machine.asked = some m.marks.length)
    (isBenign : String → Bool) (bound : Option Instant) :
    Orderly (marking (Noted I)) (fun s m => m.marks = s ∧ AskedSince slot x.engine.marks m)
      (Traces bodies.length) []
      (bodies ++ [⟨bodies.length, none, fun _ => e.noted.closing isBenign⟩])
      ((x.issueClose e.noted.announceClose (e.noted.closing isBenign)).2.advance bound) := by
  have hsince := marking_governs (since_keeps hslot x.engine.marks)
  have hafter := marking_governs (askedSince_keeps hslot x.engine.marks)
  have hready : Ready (marking (Noted I))
      (fun s m => m.marks = s ∧ Since slot x.engine.marks m) _ _ _ x :=
    hx.carry fun s hl => ⟨hl.1, hl.2, List.prefix_rfl⟩
  have hmeets : Meets (marking (Noted I)) (Traces bodies.length)
      ⟨bodies.length, none, fun _ => e.noted.closing isBenign⟩ := by
    intro s now
    refine (hpaced.closing isBenign s).mono fun o t h => ?_
    rwa [Traces, if_neg (Nat.lt_irrefl _)]
  have hy := hready.issueClose (discreet_of_obeys hsince hpaced.announcing) hmeets
  refine hy.announced hsince hafter rfl rfl ?_ (discreet_of_obeys hafter hpaced.announcing) bound
  rintro s m now ⟨rfl, hm⟩
  obtain ⟨hmarks, hkept⟩ := discreet_of_obeys hsince hpaced.announcing _ m now ⟨rfl, hm⟩
  exact ⟨hmarks, hkept, m.marks.length, hasks now m, hm.prior.length_le⟩

/-- **The stop that a close asks for is heeded** at every later instant. -/
theorem Ready.heeds
    (hx : Ready (marking (Noted I)) (fun s m => m.marks = s ∧ Kept slot m) (Traces bodies.length) []
      bodies x) (hslot : HasSlot (Noted I) slot) (hpaced : e.Paced)
    (hasks : ∀ now (m : Traced (Noting σ)),
      (e.noted.announceClose.run none none now m).machine.asked = some m.marks.length)
    (isBenign : String → Bool) (expiry : Option Instant) (t : Instant) :
    ((x.close e.noted isBenign expiry).2.elapseTo t).engine.Heeds x.engine.marks.length
      (bodies.length - x.endings.length) := by
  obtain ⟨φ, hpast, hended, -⟩ := hx.follows.led hx.numbered (marking_governs hslot.keeps)
    fun _ _ hl => hl.1
  have hafter := marking_governs (askedSince_keeps hslot x.engine.marks)
  have hasked := hx.asked hslot hpaced hasks isBenign
  have hcall : x.close e.noted isBenign expiry =
      (x.issueClose e.noted.announceClose (e.noted.closing isBenign)).2.await
      bodies.length expiry :=
    congrArg (Schedule.await _ · expiry) hx.next
  have hleft : bodies.length - x.endings.length =
      bodies.length - min x.endings.length bodies.length := by
    omega
  rw [hcall, hleft]
  generalize (x.issueClose e.noted.announceClose (e.noted.closing isBenign)).2 = y at hasked ⊢
  rcases await_snd y bodies.length expiry with heq | ⟨bound, u, heq⟩
  · rw [heq]
    have hz := (hasked (some (t + 1))).at_ (max y.now t)
    exact heedsStop_of_follows hslot hz.numbered hpast hended hz.follows
  · rw [heq]
    have hz := ((hasked bound).at_ u).elapseTo hafter t
    exact heedsStop_of_follows hslot hz.numbered hpast hended hz.follows

end Ready

/-- **A stop is found once**: a close that is called after any list of operations, of which any
number have not ended, stops the one that is under way or the first that begins a migration then. -/
theorem stops_once (hslot : HasSlot I slot) (hpaced : e.Paced)
    (hasks : ∀ now (m : Traced (Noting σ)),
      (e.noted.announceClose.run none none now m).machine.asked = some m.marks.length)
    (isBenign : String → Bool) {m : σ} (hlistening : (slot m).listening = true) (now : Instant)
    (errands : List Errand) (pause : Option Duration) (expiry : Option Instant) :
    StopsOnce errands.length
      (({ engine := m, now := now } : Schedule I σ).followClose e isBenign errands pause expiry)
      (beforeClose e m now errands pause)
      ((beforeClose e m now errands pause).close e.noted isBenign expiry) := by
  let x₀ : Schedule (Noted I) (Traced (Noting σ)) :=
    { engine := { machine := ⟨m, []⟩ }, now := now }
  have hgoverns := marking_governs hslot.noted.keeps
  have hstart : Ready (marking (Noted I))
      (fun s (m : Traced (Noting σ)) => m.marks = s ∧ Kept (fun m : Noting σ => slot m.machine) m)
      (fun _ s _ t => Led s .idle 1 t) [] [] x₀ :=
    .start [] now ⟨rfl, hlistening, nofun, nofun, nofun⟩
  have hmeets : ∀ (errand : Errand) k, Meets (marking (Noted I)) (fun _ s _ t => Led s .idle 1 t)
      (errand.body e.noted k) :=
    fun errand k s now => hpaced.operation errand.kind errand.desired _ s
  obtain ⟨bodies, htold, hready, -⟩ := hstart.follow hgoverns hmeets errands
  have hlength : bodies.length = errands.length := by
    simpa using congrArg List.length htold.programs
  rw [List.nil_append] at hready
  have htraces : Ready (marking (Noted I)) _ (Traces bodies.length) [] bodies _ :=
    hready.mono fun b hb s o t h => by
      have hserial := List.mem_map_of_mem (f := (·.serial)) hb
      rw [hready.numbered, List.mem_range] at hserial
      rwa [Traces, if_pos hserial]
  have hheeds := (htraces.rest hgoverns pause).heeds hslot.noted hpaced hasks isBenign expiry
  rw [hlength] at hheeds
  refine ⟨?_, hheeds, fun hone t k hk => ?_⟩
  · have hmap :=
      followClose_map (f := Traced.machine) untraced e.noted isBenign errands pause expiry x₀
    have herase := followClose_erase e isBenign errands pause expiry (x₀.map Traced.machine)
    rw [hmap] at herase
    exact herase
  · obtain ⟨k', hk', -, hheeded⟩ := hheeds t
    obtain rfl : k' = k := Option.some.inj (hk'.symm.trans hk)
    exact hheeded.alone hone

end Schedule

end Stairway
