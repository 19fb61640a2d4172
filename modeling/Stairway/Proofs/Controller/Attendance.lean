import Stairway.Proofs.Controller.Errands
import Stairway.Proofs.Program.Bounds

/-!
# When a body gets the engine

`Follows` says in which order bodies have the engine. `Attends` adds when: at the instant at which a
body has been issued and the one before it has ended, whichever is later (`Issue.start`). Neither
its deadline nor anything that happens to a caller has a part in this, so the time that a body has
left when it begins is settled by the instants of issue and by the endings alone.

`Attends` speaks of an instant `t` up to which a schedule has come. Letting bodies work moves it to
where they stopped (`Attends.work`), which is within the time that the caller waits (`work_le`), so
it holds again at the caller's clock when the call returns (`Attending.await`). There is no close
here: closing ends the use of a controller, and what is said of it stands elsewhere.
-/

namespace Stairway

/-! ## Runs and the clock -/

namespace Program

variable {I : Interface} {σ α : Type} [Machine I σ]

/-- A run comes no further than to the last instant before its bound. -/
theorem run_le {bound last : Instant} (hbound : bound ≤ last + 1) (p : Program I α) :
    ∀ {now : Instant} (m : σ), now ≤ last → (p.run none (some bound) now m).now ≤ last := by
  have hbefore : ∀ {t : Instant}, t.isBefore (some bound) = true → t ≤ last := by
    intro t ht
    exact Nat.le_of_lt_succ (Nat.lt_of_lt_of_le (isBefore_some.1 ht) hbound)
  induction p with
  | done a => exact fun m => id
  | crash => exact fun m => id
  | pause d next ih =>
    intro now m hnow
    rw [run_pause]
    split
    · next hwake => exact ih m (hbefore hwake)
    · exact hnow
  | race d next ih =>
    intro now m hnow
    simp only [run_race, Option.any_none, Bool.false_eq_true, if_false]
    split
    · next hwake =>
      refine ih false m ?_
      rcases Bool.or_eq_true_iff.1 hwake with hzero | hwake
      · have hd : d = 0 := by simpa using hzero
        rwa [hd]
      · exact hbefore hwake
    · exact hnow
  | ask r next ih =>
    intro now m hnow
    rcases h : Machine.arrive r now m with ⟨_ | d, m'⟩
    · rw [run_ask_now h]
      exact ih _ _ hnow
    · rw [run_ask_later h]
      split
      · next hwake => exact ih _ _ (hbefore hwake)
      · exact hnow

end Program

namespace Activity

variable {I : Interface} {σ α : Type} [Machine I σ]

theorem le_run (bound : Option Instant) (a : Activity I α) (now : Instant) (m : σ) :
    now ≤ (a.run none bound now m).now := by
  cases a with
  | ended o => exact Nat.le_refl now
  | asleep wake next =>
    rw [run_asleep]
    split
    · exact Nat.le_trans (Nat.le_max_left now wake) (next.le_run none bound _ m)
    · exact Nat.le_refl now
  | awaiting wake r next =>
    rw [run_awaiting]
    split
    · exact Nat.le_trans (Nat.le_max_left now wake) ((next _).le_run none bound _ _)
    · exact Nat.le_refl now

theorem run_le {bound last : Instant} (hbound : bound ≤ last + 1) (a : Activity I α) {now : Instant}
    (m : σ) (hnow : now ≤ last) : (a.run none (some bound) now m).now ≤ last := by
  have hwoken : ∀ {wake : Instant}, wake.isBefore (some bound) = true → max now wake ≤ last := by
    intro wake hwake
    have hlast := Nat.le_of_lt_succ (Nat.lt_of_lt_of_le (Program.isBefore_some.1 hwake) hbound)
    exact Nat.max_le.2 ⟨hnow, hlast⟩
  cases a with
  | ended o => exact hnow
  | asleep wake next =>
    rw [run_asleep]
    split
    · next hwake => exact next.run_le hbound m (hwoken hwake)
    · exact hnow
  | awaiting wake r next =>
    rw [run_awaiting]
    split
    · next hwake => exact (next _).run_le hbound _ (hwoken hwake)
    · exact hnow

end Activity

/-! ## Issues -/

/-- A body, and the instant at which it was issued. -/
structure Issue (I : Interface) where
  body : Body I
  time : Instant

/-- When the turn of a body comes, if the engine is free from `free` on. -/
def Issue.start {I : Interface} (c : Issue I) (free : Instant) : Instant := max c.time free

/-- What settles how much time an operation has: its deadline, and when it was issued. -/
structure Ticket where
  deadline : Option Instant
  issued : Instant

/-- The time that is left when the turn comes, if the engine is free from `free` on. -/
def Ticket.remaining (c : Ticket) (free : Instant) : Option Duration :=
  c.deadline.map (· - max c.issued free)

def Issue.ticket {I : Interface} (c : Issue I) : Ticket := ⟨c.body.deadline, c.time⟩

namespace Schedule

variable {I : Interface} {S σ : Type}

/-- When the last of some bodies ended. -/
def freeSince (endings : List Ending) : Instant := (endings.getLast?.map (·.time)).getD 0

@[simp] theorem freeSince_snoc (endings : List Ending) (e : Ending) :
    freeSince (endings ++ [e]) = e.time := by
  simp [freeSince]

/-- Bodies that have ended, one after the other, each as `spec` says of the instant at which its
turn came. -/
inductive Attended (spec : Body I → Instant → S → Outcome (Except Failure Unit) → S → Prop)
    (s₀ : S) :
    List (Issue I) → List Ending → S → Prop where
  | none : Attended spec s₀ [] [] s₀
  | next {issues : List (Issue I)} {endings : List Ending} {s t : S} {c : Issue I} {e : Ending}
      (before : Attended spec s₀ issues endings s) (serial : e.serial = c.body.serial)
      (effect : spec c.body (c.start (freeSince endings)) s e.outcome t) :
      Attended spec s₀ (issues ++ [c]) (endings ++ [e]) t

/-- A schedule that has come to the instant `t` and has attended to the bodies issued so far, each
when its turn came. -/
inductive Attends (P : Protocol I S) (link : S → σ → Prop)
    (spec : Body I → Instant → S → Outcome (Except Failure Unit) → S → Prop) (s₀ : S) :
    List (Issue I) → Schedule I σ → Instant → Prop where
  | free {x : Schedule I σ} {ended waiting : List (Issue I)} {s : S} {t : Instant}
      (holder : x.holder = none) (line : x.line = waiting.map (·.body))
      (attended : Attended spec s₀ ended x.endings s) (linked : link s x.engine)
      (past : freeSince x.endings ≤ t) (due : ∀ c ∈ waiting, c.start (freeSince x.endings) = t) :
      Attends P link spec s₀ (ended ++ waiting) x t
  | held {x : Schedule I σ} {ended waiting : List (Issue I)} {c : Issue I} {s u : S} {t : Instant}
      {a : Activity I (Except Failure Unit)} (holder : x.holder = some (c.body.serial, a))
      (line : x.line = waiting.map (·.body)) (attended : Attended spec s₀ ended x.endings s)
      (reached : P.Reaches s u)
        (obeys : a.Obeys P (spec c.body (c.start (freeSince x.endings)) s) u)
      (linked : link u x.engine) (past : ∀ d ∈ waiting, d.time ≤ t) :
      Attends P link spec s₀ (ended ++ c :: waiting) x t

/-- A body that, begun at any instant and in any state, ends as `spec` says of that instant. -/
def Punctual (P : Protocol I S)
    (spec : Body I → Instant → S → Outcome (Except Failure Unit) → S → Prop) (b : Body I) : Prop :=
  ∀ s start, (b.start start).Obeys P (spec b start s) s

variable {P : Protocol I S} {link : S → σ → Prop}
  {spec : Body I → Instant → S → Outcome (Except Failure Unit) → S → Prop} {s₀ : S}
  {issued : List (Issue I)} {x : Schedule I σ} {t : Instant}

/-- The order alone. -/
theorem Attended.served {endings : List Ending} {s : S} (h : Attended spec s₀ issued endings s) :
    Served (fun b s o t => ∃ start, spec b start s o t) s₀ (issued.map (·.body)) endings s := by
  induction h with
  | none => exact .none
  | next before serial effect ih =>
    rw [List.map_append]
    exact ih.next serial ⟨_, effect⟩

theorem Attended.length {endings : List Ending} {s : S} (h : Attended spec s₀ issued endings s) :
    endings.length = issued.length := by
  simpa using congrArg List.length h.served.serials

theorem Attended.hasEnded_iff {ended rest : List (Issue I)} {s : S}
    (hn : Numbered ((ended ++ rest).map (·.body))) (h : Attended spec s₀ ended x.endings s)
    (k : Nat) :
    x.hasEnded k = true ↔ k < ended.length := by
  rw [List.map_append] at hn
  simpa using h.served.hasEnded_iff hn k

/-- The bodies that have ended are the first ones. -/
theorem Attends.attended (h : Attends P link spec s₀ issued x t) :
    ∃ ended rest s, issued = ended ++ rest ∧ Attended spec s₀ ended x.endings s := by
  cases h with
  | free holder line attended linked past due => exact ⟨_, _, _, rfl, attended⟩
  | held holder line attended reached obeys linked past => exact ⟨_, _, _, rfl, attended⟩

theorem Attends.serials (h : Attends P link spec s₀ issued x t)
    (hn : Numbered (issued.map (·.body))) :
    x.endings.map (·.serial) = List.range x.endings.length := by
  obtain ⟨ended, rest, s, rfl, attended⟩ := h.attended
  rw [List.map_append] at hn
  rw [attended.served.serials, hn.front, attended.length, List.length_map]

/-- Once every body has ended, the engine has gone through all their effects. -/
theorem Attends.concluded (h : Attends P link spec s₀ issued x t)
    (hn : Numbered (issued.map (·.body))) (hall : ∀ k < issued.length, x.hasEnded k = true) :
    ∃ s, Attended spec s₀ issued x.endings s ∧ link s x.engine := by
  cases h with
  | @free _ ended waiting s _ holder line attended linked past due =>
    have hw : waiting.length = 0 := Nat.eq_zero_of_not_pos fun hpos => by
      have := (attended.hasEnded_iff hn _).1 (hall ended.length (by simp; omega))
      omega
    rw [List.length_eq_zero_iff.1 hw, List.append_nil]
    exact ⟨s, attended, linked⟩
  | @held _ ended waiting c s u _ a holder line attended reached obeys linked past =>
    have := (attended.hasEnded_iff hn _).1 (hall ended.length (by simp))
    omega

/-- Later on the same bodies have been attended to, unless the engine is free for one that waits. -/
theorem Attends.later (h : Attends P link spec s₀ issued x t)
    (hline : x.holder = none → x.line = []) {t' : Instant} (ht : t ≤ t') :
    Attends P link spec s₀ issued x t' := by
  cases h with
  | free holder line attended linked past due =>
    refine .free holder line attended linked (Nat.le_trans past ht) ?_
    rw [hline holder, eq_comm, List.map_eq_nil_iff] at line
    subst line
    nofun
  | held holder line attended reached obeys linked past =>
    exact .held holder line attended reached obeys linked fun d hd => Nat.le_trans (past d hd) ht

/-- A schedule that has attended to all bodies can be looked at from the last ending on. -/
theorem Attends.of_last (h : Attends P link spec s₀ issued x t)
    (hn : Numbered (issued.map (·.body))) {e : Ending} (he : e ∈ x.endings)
    (hserial : e.serial + 1 = issued.length) :
    Attends P link spec s₀ issued x e.time := by
  have hended : x.hasEnded e.serial = true := Schedule.hasEnded_iff.2 (List.mem_map_of_mem he)
  cases h with
  | @free _ ended waiting s _ holder line attended linked past due =>
    have hlt := (attended.hasEnded_iff hn _).1 hended
    rw [List.length_append] at hserial
    have hnil : waiting = [] := List.length_eq_zero_iff.1 (by omega)
    subst hnil
    refine .free holder line attended linked ?_ nofun
    -- of all endings only the last has this number
    generalize x.endings = endings at attended he
    cases attended with
    | none => cases he
    | @next issues front u v c last before serial effect =>
      rcases List.mem_append.1 he with hfront | hlast
      · have hmem : e.serial ∈ (issues.map (·.body)).map (·.serial) :=
          before.served.serials ▸ List.mem_map_of_mem hfront
        rw [List.append_nil, List.map_append] at hn
        rw [hn.front, List.mem_range] at hmem
        simp only [List.length_append, List.length_map, List.length_singleton,
          List.length_nil] at hmem hserial
        omega
      · obtain rfl := List.mem_singleton.1 hlast
        exact Nat.le_of_eq (freeSince_snoc front e)
  | held holder line attended reached obeys linked past =>
    have hlt := (attended.hasEnded_iff hn _).1 hended
    rw [List.length_append, List.length_cons] at hserial
    omega

/-! ## Working -/

variable [Machine I σ]

theorem lend_attends (hP : P.Governs link) (bound : Option Instant) (waiting : List (Issue I)) :
    ∀ {x : Schedule I σ} {t : Instant} {ended : List (Issue I)} {s : S},
      x.holder = none → Attended spec s₀ ended x.endings s → link s x.engine →
      (∀ c ∈ waiting, Punctual P spec c.body) → freeSince x.endings ≤ t →
      (∀ c ∈ waiting, c.start (freeSince x.endings) = t) →
      Attends P link spec s₀ (ended ++ waiting) (x.lend bound t (waiting.map (·.body))).1
        (x.lend bound t (waiting.map (·.body))).2 := by
  induction waiting with
  | nil =>
    intro x t ended s holder attended linked _ past _
    exact Attends.free (x := { x with line := [] }) holder rfl attended linked past nofun
  | cons c rest ih =>
    intro x t ended s holder attended linked hpunctual past due
    have hstart : c.start (freeSince x.endings) = t := due c List.mem_cons_self
    have hissued : ∀ d ∈ rest, d.time ≤ t := by
      intro d hd
      rw [← due d (List.mem_cons_of_mem c hd)]
      exact Nat.le_max_left _ _
    have hlater : t ≤ ((c.body.start t).run none bound t x.engine).now :=
      (c.body.start t).le_run none bound t x.engine
    obtain ⟨u, reached, linked', obeys⟩ :=
      hP.run none bound (hpunctual c List.mem_cons_self s t) linked
    rw [List.map_cons]
    obtain ⟨o, ha, h⟩ | ⟨-, h⟩ := lend_cons bound x t c.body (rest.map (·.body))
    · rw [h]
      rw [ha] at obeys
      have hnext : Attended spec s₀ (ended ++ [c]) (x.endings ++
          [⟨c.body.serial, o, ((c.body.start t).run none bound t x.engine).now⟩]) u :=
        attended.next rfl (hstart ▸ obeys)
      have hrest := ih (x := { x with
          engine := ((c.body.start t).run none bound t x.engine).machine
          endings :=
            x.endings ++ [⟨c.body.serial, o, ((c.body.start t).run none bound t x.engine).now⟩] })
        (t := ((c.body.start t).run none bound t x.engine).now) holder hnext linked'
        (fun d hd => hpunctual d (List.mem_cons_of_mem c hd)) (by simp) ?_
      · simpa using hrest
      · -- who waits was issued before the engine became free, so the next turn comes at once
        intro d hd
        rw [freeSince_snoc]
        exact Nat.max_eq_right (Nat.le_trans (hissued d hd) hlater)
    · rw [h]
      exact Attends.held (x := { x with
          engine := ((c.body.start t).run none bound t x.engine).machine
          holder := some (c.body.serial, ((c.body.start t).run none bound t x.engine).activity)
          line := rest.map (·.body) }) rfl rfl attended reached (hstart ▸ obeys) linked'
        fun d hd => Nat.le_trans (hissued d hd) hlater

theorem Attends.work (hP : P.Governs link) (bound : Option Instant)
    (hpunctual : ∀ c ∈ issued, Punctual P spec c.body) (h : Attends P link spec s₀ issued x x.now) :
    Attends P link spec s₀ issued (x.work bound).1 (x.work bound).2 := by
  generalize hnow : x.now = now at h
  cases h with
  | @free _ ended waiting s _ holder line attended linked past due =>
    rw [work_free bound holder, hnow, line]
    exact lend_attends hP bound waiting holder attended linked
      (fun c hc => hpunctual c (List.mem_append_right _ hc)) past due
  | @held _ ended waiting c s u _ a holder line attended reached obeys linked past =>
    obtain ⟨v, reached', linked', obeys'⟩ := hP.resume none bound x.now obeys linked
    have hlater : now ≤ (a.run none bound x.now x.engine).now :=
      hnow ▸ a.le_run bound x.now x.engine
    obtain ⟨o, ha, h⟩ | ⟨-, h⟩ := work_held bound holder
    · rw [h, line]
      rw [ha] at obeys'
      have hnext : Attended spec s₀ (ended ++ [c]) (x.endings ++
          [⟨c.body.serial, o, (a.run none bound x.now x.engine).now⟩]) v :=
        attended.next rfl obeys'
      have hrest := lend_attends hP bound waiting (x := { x with
          engine := (a.run none bound x.now x.engine).machine
          holder := none
          endings := x.endings ++ [⟨c.body.serial, o, (a.run none bound x.now x.engine).now⟩] })
        (t := (a.run none bound x.now x.engine).now) rfl hnext linked'
        (fun d hd => hpunctual d (List.mem_append_right _ (List.mem_cons_of_mem c hd))) (by simp) ?_
      · simpa [line] using hrest
      · intro d hd
        rw [freeSince_snoc]
        exact Nat.max_eq_right (Nat.le_trans (past d hd) hlater)
    · rw [h]
      exact Attends.held (x := { x with
          engine := (a.run none bound x.now x.engine).machine
          holder := some (c.body.serial, (a.run none bound x.now x.engine).activity) })
        rfl line attended (reached.trans reached') obeys' linked'
        fun d hd => Nat.le_trans (past d hd) hlater

/-- Bodies in line stay there only while one of them has the engine. -/
theorem lend_line (bound : Option Instant) (line : List (Body I)) :
    ∀ {x : Schedule I σ} {t : Instant}, x.holder = none →
      (x.lend bound t line).1.holder = none → (x.lend bound t line).1.line = [] := by
  induction line with
  | nil => exact fun _ _ => rfl
  | cons b rest ih =>
    intro x t holder
    obtain ⟨o, -, h⟩ | ⟨-, h⟩ := lend_cons bound x t b rest
    · rw [h]
      exact ih holder
    · rw [h]
      nofun

theorem work_line (bound : Option Instant) (x : Schedule I σ) :
    (x.work bound).1.holder = none → (x.work bound).1.line = [] := by
  rcases hx : x.holder with _ | ⟨n, a⟩
  · rw [work_free bound hx]
    exact lend_line bound x.line hx
  · obtain ⟨o, -, h⟩ | ⟨-, h⟩ := work_held bound hx
    · rw [h]
      exact lend_line bound x.line rfl
    · rw [h]
      nofun

theorem lend_le {bound last : Instant} (hbound : bound ≤ last + 1) (line : List (Body I)) :
    ∀ (x : Schedule I σ) {t : Instant}, t ≤ last → (x.lend (some bound) t line).2 ≤ last := by
  induction line with
  | nil => exact fun x t => id
  | cons b rest ih =>
    intro x t ht
    have hrun := (b.start t).run_le hbound x.engine ht
    obtain ⟨o, -, h⟩ | ⟨-, h⟩ := lend_cons (some bound) x t b rest
    · rw [h]
      exact ih _ hrun
    · rw [h]
      exact hrun

/-- Bodies come no further than to the last instant before the bound. -/
theorem work_le {bound last : Instant} (hbound : bound ≤ last + 1) (hnow : x.now ≤ last) :
    (x.work (some bound)).2 ≤ last := by
  rcases hx : x.holder with _ | ⟨n, a⟩
  · rw [work_free _ hx]
    exact lend_le hbound x.line x hnow
  · have hrun := a.run_le hbound x.engine hnow
    obtain ⟨o, -, h⟩ | ⟨-, h⟩ := work_held (some bound) hx
    · rw [h]
      exact lend_le hbound x.line _ hrun
    · rw [h]
      exact hrun

/-- Without a close advancing is working. -/
theorem advance_eq_work (bound : Option Instant) (hclosing : x.closing = none) :
    x.advance bound = (x.work bound).1 := by
  have hprepare : x.prepare = x := by simp [Schedule.prepare, hclosing]
  rw [advance_eq, hprepare]
  simp [Schedule.takeIn, (work_sameDesk bound x).closing, hclosing]

omit [Machine I σ] in
/-- A body that is issued waits from now on. -/
theorem Attends.issue (h : Attends P link spec s₀ issued x x.now) (deadline : Option Instant)
    (program : Option Duration → Program I (Except Failure Unit)) :
    Attends P link spec s₀ (issued ++ [⟨⟨x.next, deadline, program⟩, x.now⟩])
      (x.issue deadline program).2 x.now := by
  generalize hnow : x.now = now at h ⊢
  cases h with
  | @free _ ended waiting s _ holder line attended linked past due =>
    rw [List.append_assoc]
    refine .free holder (by simp [Schedule.issue, line]) attended linked past ?_
    intro c hc
    rcases List.mem_append.1 hc with hc | hc
    · exact due c hc
    · obtain rfl := List.mem_singleton.1 hc
      exact Nat.max_eq_left past
  | @held _ ended waiting c s u _ a holder line attended reached obeys linked past =>
    rw [List.append_assoc, List.cons_append]
    refine .held holder (by simp [Schedule.issue, line]) attended reached obeys linked ?_
    intro d hd
    rcases List.mem_append.1 hd with hd | hd
    · exact past d hd
    · obtain rfl := List.mem_singleton.1 hd
      exact Nat.le_refl now

/-! ## Between two calls -/

/-- What holds of a schedule between two calls, if it is never closed. -/
structure Attending (P : Protocol I S) (link : S → σ → Prop)
    (spec : Body I → Instant → S → Outcome (Except Failure Unit) → S → Prop) (s₀ : S)
    (issued : List (Issue I)) (x : Schedule I σ) : Prop where
  attends : Attends P link spec s₀ issued x x.now
  punctual : ∀ c ∈ issued, Punctual P spec c.body
  numbered : Numbered (issued.map (·.body))
  closing : x.closing = none
  next : x.next = issued.length
  armed : x.armed = issued.getLast?.map (·.body.serial)

namespace Attending

omit [Machine I σ] in
theorem start (s₀ : S) (now : Instant) {m : σ} (hl : link s₀ m) :
    Attending P link spec s₀ [] ({ engine := m, now := now } : Schedule I σ) where
  attends := by
    have hnone : ∀ c ∈ ([] : List (Issue I)), c.start (freeSince []) = now := nofun
    exact Attends.free (x := { engine := m, now := now }) rfl rfl .none hl (Nat.zero_le now) hnone
  punctual := nofun
  numbered := rfl
  closing := rfl
  next := rfl
  armed := rfl

omit [Machine I σ] in
/-- **The controller is idle exactly when every body has ended.** The gate follows the last one
only, and that is the one to end last. -/
theorem isIdle_iff (h : Attending P link spec s₀ issued x) :
    x.isIdle = true ↔ ∀ k < issued.length, x.hasEnded k = true := by
  have hended : ∃ n, ∀ k, x.hasEnded k = true ↔ k < n := by
    obtain ⟨ended, rest, s, hissued, attended⟩ := h.attends.attended
    exact ⟨ended.length, attended.hasEnded_iff (hissued ▸ h.numbered)⟩
  obtain ⟨n, hn⟩ := hended
  unfold isIdle
  rw [h.armed]
  rcases List.eq_nil_or_concat issued with rfl | ⟨front, c, rfl⟩
  · simp
  · have hserial : c.body.serial = front.length := by
      have hnumbered : Numbered (front.map (·.body) ++ c.body :: []) := by simpa using h.numbered
      simpa using hnumbered.serial_at
    simp only [List.concat_eq_append, List.getLast?_concat, Option.map_some, Option.all_some,
      hserial, hn, List.length_append, List.length_singleton]
    constructor
    · intro hlast k hk
      omega
    · intro hall
      exact hall front.length (Nat.lt_succ_self _)

omit [Machine I σ] in
theorem issue (h : Attending P link spec s₀ issued x) {deadline : Option Instant}
    {program : Option Duration → Program I (Except Failure Unit)}
    (hb : Punctual P spec ⟨x.next, deadline, program⟩) :
    Attending P link spec s₀ (issued ++ [⟨⟨x.next, deadline, program⟩, x.now⟩])
      (x.issue deadline program).2 where
  attends := h.attends.issue deadline program
  punctual := by
    intro c hc
    rcases List.mem_append.1 hc with hc | hc
    · exact h.punctual c hc
    · obtain rfl := List.mem_singleton.1 hc
      exact hb
  numbered := by
    rw [List.map_append]
    exact h.numbered.snoc (by simp [h.next])
  closing := h.closing
  next := by simp [Schedule.issue, h.next]
  armed := by simp [Schedule.issue]

/-- A schedule whose bodies have worked, at an instant from which it can be looked at. -/
theorem worked (bound : Option Instant) {t : Instant} (h : Attending P link spec s₀ issued x)
    (hworked : Attends P link spec s₀ issued (x.work bound).1 t) :
    Attending P link spec s₀ issued { x.advance bound with now := t } := by
  have hdesk := work_sameDesk bound x
  rw [advance_eq_work bound h.closing]
  refine ⟨?_, h.punctual, h.numbered, hdesk.closing.trans h.closing, hdesk.next.trans h.next,
    hdesk.armed.trans h.armed⟩
  cases hworked with
  | free holder line attended linked past due => exact .free holder line attended linked past due
  | held holder line attended reached obeys linked past =>
    exact .held holder line attended reached obeys linked past

/-- Time passes up to the last instant before a bound. -/
theorem pass (hP : P.Governs link) {bound last : Instant} (hbound : bound ≤ last + 1)
    (hnow : x.now ≤ last) (h : Attending P link spec s₀ issued x) :
    Attending P link spec s₀ issued { x.advance (some bound) with now := last } :=
  h.worked (some bound)
    ((h.attends.work hP (some bound) h.punctual).later (work_line (some bound) x)
      (work_le hbound hnow))

theorem elapseTo (hP : P.Governs link) (t : Instant) (h : Attending P link spec s₀ issued x) :
    Attending P link spec s₀ issued (x.elapseTo t) :=
  h.pass hP (Nat.succ_le_succ (Nat.le_max_right x.now t)) (Nat.le_max_left x.now t)

theorem rest (hP : P.Governs link) (pause : Option Duration)
    (h : Attending P link spec s₀ issued x) :
    Attending P link spec s₀ issued (x.rest pause) := by
  cases pause with
  | none => exact h
  | some d => exact h.elapseTo hP _

omit [Machine I σ] in
/-- The instant at which somebody who waits is told: that of the ending, or that at which time ran
out. -/
theorem envelope_time {α : Type} {start t : Instant} {expiry : Option Instant}
    {ending : Option (Instant × Outcome (Except Failure α))} {r : Except Failure α}
    (h : envelope start expiry ending = some (t, r)) :
    (∃ o, ending = some (t, o)) ∨ ∃ e, expiry = some e ∧ t = max start e := by
  unfold envelope at h
  split at h
  · cases h
  · cases h
    exact .inl ⟨_, rfl⟩
  · cases h
    exact .inr ⟨_, rfl, rfl⟩
  · split at h
    · cases h
      exact .inl ⟨_, rfl⟩
    · cases h
      exact .inr ⟨_, rfl, rfl⟩

/-- Left to themselves all bodies end. -/
theorem hasEnded_of_unbounded (hP : P.Governs link) (h : Attending P link spec s₀ issued x)
    {k : Nat} (hk : k < issued.length) : (x.advance none).hasEnded k = true := by
  obtain ⟨hfree, hline⟩ := work_ends x
  have hworked := h.attends.work hP none h.punctual
  have hn := h.numbered
  rw [advance_eq_work none h.closing]
  cases hworked with
  | free holder line attended linked past due =>
    rw [hline, eq_comm, List.map_eq_nil_iff] at line
    subst line
    exact (attended.hasEnded_iff hn k).2 (by simpa using hk)
  | held holder line attended reached obeys linked past =>
    rw [hfree] at holder
    cases holder

/-- **Waiting for the body issued last**, under any context. -/
theorem await (hP : P.Governs link) {k : Nat} (expiry : Option Instant) (hk : k + 1 = issued.length)
    (h : Attending P link spec s₀ issued x) :
    Attending P link spec s₀ issued (x.await k expiry).2 := by
  unfold Schedule.await
  split
  · exact h
  dsimp only
  rcases henv : envelope x.now expiry (((x.advance (expiry.map (· + 1))).endingOf? k).map fun e =>
      (e.time, e.outcome)) with _ | ⟨t, r⟩
  · -- nobody waits for ever: without a bound the body ends
    obtain ⟨rfl, hnever⟩ := envelope_eq_none henv
    have hended := h.hasEnded_of_unbounded hP (Nat.lt_of_succ_le (Nat.le_of_eq hk))
    have hnot : (x.advance none).hasEnded k = false := by simpa [hasEnded, endingOf?] using hnever
    rw [hnot] at hended
    cases hended
  · rw [henv]
    obtain ⟨o, hending⟩ | ⟨e, rfl, rfl⟩ := envelope_time henv
    · -- the caller is told at the ending of this body, which was the last to end
      obtain ⟨e, he, heq⟩ := Option.map_eq_some_iff.1 hending
      cases heq
      obtain ⟨hmem, hserial⟩ := endingOf?_eq_some he
      rw [advance_eq_work _ h.closing] at hmem
      exact h.worked _ ((h.attends.work hP _ h.punctual).of_last h.numbered hmem (by omega))
    · exact h.pass hP (Nat.succ_le_succ (Nat.le_max_right x.now e)) (Nat.le_max_left x.now e)

theorem perform (hP : P.Governs link) {e : Engine I} {errand : Errand}
    (hb : Punctual P spec (errand.body e x.next)) (h : Attending P link spec s₀ issued x) :
    Attending P link spec s₀ (issued ++ [⟨errand.body e x.next, x.now⟩])
      (x.perform e errand.kind errand.desired errand.deadline errand.expiry).2 :=
  (h.issue hb).await hP errand.expiry (by simp [h.next])

end Attending

/-! ## Moments of a run -/

/-- The tickets of a list of errands. -/
def tickets (e : Engine I) : List Errand → Schedule I σ → List Ticket
  | [], _ => []
  | errand :: errands, x =>
    let x := x.rest errand.pause
    ⟨errand.deadline, x.now⟩ ::
      tickets e errands (x.perform e errand.kind errand.desired errand.deadline errand.expiry).2

/-- A moment of a run: some calls have returned, another one may have been made, and some time may
have passed since. -/
structure Moment where
  returned : List Errand
  underWay : Option Errand := none
  since : Option Duration := none

/-- The calls that have been made. -/
def Moment.errands (w : Moment) : List Errand := w.returned ++ w.underWay.toList

/-- The schedule after a call has been made, while its caller waits. -/
def begin (e : Engine I) (x : Schedule I σ) : Option Errand → Schedule I σ
  | none => x
  | some errand => ((x.rest errand.pause).issue errand.deadline (errand.program e)).2

/-- The schedule at a moment of a run. -/
def upTo (e : Engine I) (w : Moment) (x : Schedule I σ) : Schedule I σ :=
  ((x.follow e w.returned).2.begin e w.underWay).rest w.since

theorem tickets_append (e : Engine I) (errands more : List Errand) : ∀ x : Schedule I σ,
    x.tickets e (errands ++ more) = x.tickets e errands ++
      (x.follow e errands).2.tickets e more := by
  induction errands with
  | nil => exact fun x => rfl
  | cons errand errands ih =>
    intro x
    simp only [List.cons_append, tickets, follow, ih]

namespace Attending

theorem follow (hP : P.Governs link) {e : Engine I}
    (hpunctual : ∀ (errand : Errand) n, Punctual P spec (errand.body e n)) (errands : List Errand) :
    ∀ {issued : List (Issue I)} {x : Schedule I σ}, Attending P link spec s₀ issued x →
      ∃ more, more.map (·.ticket) = x.tickets e errands ∧
        Attending P link spec s₀ (issued ++ more) (x.follow e errands).2 := by
  induction errands with
  | nil =>
    intro issued x h
    refine ⟨[], rfl, ?_⟩
    rw [List.append_nil]
    exact h
  | cons errand errands ih =>
    intro issued x h
    obtain ⟨more, htickets, hmore⟩ := ih ((h.rest hP errand.pause).perform hP (hpunctual errand _))
    refine ⟨⟨errand.body e (x.rest errand.pause).next, (x.rest errand.pause).now⟩ :: more, ?_, ?_⟩
    · rw [List.map_cons, htickets]
      rfl
    · rw [List.append_assoc] at hmore
      exact hmore

/-- **At every moment of a run the bodies have been attended to**, each at its turn. -/
theorem upTo (hP : P.Governs link) {e : Engine I}
    (hpunctual : ∀ (errand : Errand) n, Punctual P spec (errand.body e n)) (w : Moment)
    (h : Attending P link spec s₀ [] x) :
    ∃ issued, issued.map (·.ticket) = x.tickets e w.errands ∧
      Attending P link spec s₀ issued (x.upTo e w) := by
  obtain ⟨issued, htickets, hissued⟩ := h.follow hP hpunctual w.returned
  rw [List.nil_append] at hissued
  unfold Schedule.upTo Moment.errands
  rcases w.underWay with _ | errand
  · refine ⟨issued, ?_, hissued.rest hP w.since⟩
    rw [Option.toList_none, List.append_nil]
    exact htickets
  · have hbegun := (hissued.rest hP errand.pause).issue (hpunctual errand _)
    refine ⟨_, ?_, hbegun.rest hP w.since⟩
    rw [List.map_append, htickets, tickets_append]
    rfl

end Attending

end Schedule

end Stairway
