import Stairway.Proofs.Controller.Order

/-!
# Everything that was issued ends

Left to itself a schedule brings every body to its end: those in line have the engine one after the
other, and then the gate of a close is open, since it waits only for an operation that was issued
before (`GateBehind`). `Follows.advance_ends` says this of `advance` without a bound, and
`advance_lateBound` that a late enough bound does as well. `Orderly` puts together what of a
schedule stays true as time passes; from some instant on, everything that an orderly schedule was
given has ended (`Orderly.elapse_ends`).

What a caller is told is in `await_cases`: time ran out, or the ending of the body that was awaited.
-/

namespace Stairway.Schedule

variable {I : Interface} {S σ : Type} [Machine I σ] {P : Protocol I S} {link : S → σ → Prop}
  {spec : Body I → S → Outcome (Except Failure Unit) → S → Prop} {s₀ : S}
  {issued : List (Body I)} {x : Schedule I σ}

/-! ## Without a bound -/

theorem lend_ends (line : List (Body I)) : ∀ {x : Schedule I σ} {t : Instant}, x.holder = none →
    (x.lend none t line).1.holder = none ∧ (x.lend none t line).1.line = [] := by
  induction line with
  | nil => exact fun holder => ⟨holder, rfl⟩
  | cons b rest ih =>
    intro x t holder
    obtain ⟨o, -, h⟩ | ⟨hnot, -⟩ := lend_cons none x t b rest
    · rw [h]
      exact ih holder
    · obtain ⟨o, ho⟩ := (b.start t).run_ends none t x.engine
      exact absurd ho (hnot o)

theorem work_ends (x : Schedule I σ) : (x.work none).1.holder = none ∧
    (x.work none).1.line = [] := by
  rcases hx : x.holder with _ | ⟨n, a⟩
  · rw [work_free none hx]
    exact lend_ends x.line hx
  · obtain ⟨o, -, h⟩ | ⟨hnot, -⟩ := work_held none hx
    · rw [h]
      exact lend_ends x.line rfl
    · obtain ⟨o, ho⟩ := a.run_ends none x.now x.engine
      exact absurd ho (hnot o)

omit [Machine I σ] in
/-- Where nobody holds the engine or waits for it, every body has ended. -/
theorem Follows.hasEnded (h : Follows P link spec s₀ issued x) (hn : Numbered issued)
    (holder : x.holder = none) {k : Nat} (hk : k + x.waiting.length < issued.length) :
    x.hasEnded k = true := by
  cases h with
  | @free _ ended s _ served linked =>
    refine (served.hasEnded_iff hn k).2 ?_
    simp only [List.length_append] at hk
    omega
  | held held => simp_all

/-! ## The gate -/

/-- The operation that the gate of a close follows, or will follow once it has announced itself. -/
def gated (x : Schedule I σ) : Option Nat :=
  match x.closing with
  | some ⟨_, _, some gate⟩ => gate
  | _ => x.armed

/-- The gate of a close waits for none but an operation that was issued before it. -/
def GateBehind (issued : List (Body I)) (x : Schedule I σ) : Prop :=
  ∀ k, x.gated = some k → k + (x.closing.map (·.body)).toList.length < issued.length

/-- After the first part of advancing a close has a gate, which is behind if it was to be. -/
theorem prepare_closing (x : Schedule I σ) :
    x.prepare.closing = x.closing.map fun c => { c with gate := some x.gated } := by
  unfold Schedule.prepare
  split
  · next body announcement hc =>
    have hdesk := work_sameDesk (some x.now) x
    simp [announce, gated, hdesk.closing, hdesk.armed, hc]
  · next hnot =>
    rcases hc : x.closing with _ | ⟨body, announcement, _ | gate⟩
    · rfl
    · exact absurd hc (hnot body announcement)
    · simp [gated, hc]

/-- The last part of advancing leaves a close where it is or, if its gate is open, takes it in. -/
theorem takeIn_closing (bound : Option Instant) (x : Schedule I σ) (t : Instant) :
    (x.takeIn bound t).closing = x.closing ∨ (x.takeIn bound t).closing = none := by
  unfold Schedule.takeIn
  split
  · split
    · dsimp only
      split
      · exact .inr (lend_sameDesk bound _ _ t).closing
      · exact .inr rfl
    · exact .inl rfl
  · exact .inl rfl

theorem takeIn_armed (bound : Option Instant) (x : Schedule I σ) (t : Instant) :
    (x.takeIn bound t).armed = x.armed := by
  unfold Schedule.takeIn
  split
  · split
    · dsimp only
      split
      · exact (lend_sameDesk bound _ _ t).armed
      · rfl
    · rfl
  · rfl

theorem advance_closing (bound : Option Instant) (x : Schedule I σ) :
    (x.advance bound).closing = x.closing.map (fun c => { c with gate := some x.gated }) ∨
      (x.advance bound).closing = none := by
  rw [advance_eq, ← prepare_closing, ← (work_sameDesk bound x.prepare).closing]
  exact takeIn_closing bound _ _

theorem advance_armed (bound : Option Instant) (x : Schedule I σ) :
    (x.advance bound).armed = x.armed ∨ (x.advance bound).armed = none := by
  rw [advance_eq, takeIn_armed, (work_sameDesk bound x.prepare).armed]
  unfold prepare
  split
  · unfold announce
    split
    · exact .inr rfl
    · exact .inl (work_sameDesk (some x.now) x).armed
  · exact .inl rfl

/-- **Left to itself, a schedule brings every body to its end.** -/
theorem Follows.advance_ends (hP : P.Governs link) (hmeets : ∀ b ∈ issued, Meets P spec b)
    (hquiet : ∀ c, x.closing = some c → Discreet link c.announcement) (hn : Numbered issued)
    (hgate : GateBehind issued x) (h : Follows P link spec s₀ issued x) :
    ∀ k < issued.length, (x.advance none).hasEnded k = true := by
  have hwork := (h.prepare hP hmeets hquiet).work hP none hmeets
  have hadvance := h.advance hP none hmeets hquiet
  obtain ⟨hfree, hline⟩ := work_ends x.prepare
  have hclosing : (x.prepare.work none).1.closing =
      x.closing.map fun c => { c with gate := some x.gated } :=
    (work_sameDesk none x.prepare).closing.trans (prepare_closing x)
  rw [advance_eq] at hadvance ⊢
  rcases hc : x.closing with _ | c
  · rw [hc, Option.map_none] at hclosing
    have hsame : (x.prepare.work none).1.takeIn none (x.prepare.work none).2 =
        (x.prepare.work none).1 := by
      simp [Schedule.takeIn, hclosing]
    rw [hsame]
    intro k hk
    exact hwork.hasEnded hn hfree (by simpa [waiting, hline, hclosing] using hk)
  · rw [hc, Option.map_some] at hclosing
    have hopen : x.gated.all (x.prepare.work none).1.hasEnded = true := by
      rw [Option.all_eq_true]
      intro k hk
      refine hwork.hasEnded hn hfree ?_
      simpa [waiting, hline, hclosing, hc] using hgate k hk
    have htaken : (x.prepare.work none).1.takeIn none (x.prepare.work none).2 =
        (lend none { (x.prepare.work none).1 with
          closing := none
          line := (x.prepare.work none).1.line ++ [c.body] } (x.prepare.work none).2
          ((x.prepare.work none).1.line ++ [c.body])).1 := by
      simp [Schedule.takeIn, hclosing, hopen, hfree]
    obtain ⟨hfree', hline'⟩ := lend_ends (x := { (x.prepare.work none).1 with
        closing := none
        line := (x.prepare.work none).1.line ++ [c.body] }) (t := (x.prepare.work none).2)
      ((x.prepare.work none).1.line ++ [c.body]) hfree
    intro k hk
    refine hadvance.hasEnded hn (by rw [htaken]; exact hfree') ?_
    rw [htaken]
    simpa [waiting, hline', (lend_sameDesk none _ _ _).closing] using hk

/-! ## Late bounds -/

theorem lend_lateBound (line : List (Body I)) : ∀ (x : Schedule I σ) (t : Instant),
    ∃ T₀, ∀ T, T₀ ≤ T → x.lend (some T) t line = x.lend none t line := by
  induction line with
  | nil => exact fun x t => ⟨0, fun T _ => rfl⟩
  | cons b rest ih =>
    intro x t
    obtain ⟨T₁, h₁⟩ := (b.start t).run_lateBound none t x.engine
    obtain ⟨o, ho⟩ := (b.start t).run_ends none t x.engine
    obtain ⟨T₂, h₂⟩ := ih { x with
      engine := ((b.start t).run none none t x.engine).machine
      endings := x.endings ++ [⟨b.serial, o, ((b.start t).run none none t x.engine).now⟩] }
      ((b.start t).run none none t x.engine).now
    refine ⟨max T₁ T₂, fun T hT => ?_⟩
    simp only [lend, h₁ T (Nat.le_trans (Nat.le_max_left ..) hT), ho]
    exact h₂ T (Nat.le_trans (Nat.le_max_right ..) hT)

theorem work_lateBound (x : Schedule I σ) :
    ∃ T₀, ∀ T, T₀ ≤ T → x.work (some T) = x.work none := by
  rcases hx : x.holder with _ | ⟨n, a⟩
  · simpa only [work_free _ hx] using lend_lateBound x.line x x.now
  · obtain ⟨T₁, h₁⟩ := a.run_lateBound none x.now x.engine
    obtain ⟨o, ho⟩ := a.run_ends none x.now x.engine
    obtain ⟨T₂, h₂⟩ := lend_lateBound x.line { x with
      engine := (a.run none none x.now x.engine).machine
      holder := none
      endings := x.endings ++ [⟨n, o, (a.run none none x.now x.engine).now⟩] }
      (a.run none none x.now x.engine).now
    refine ⟨max T₁ T₂, fun T hT => ?_⟩
    simp only [work, hx, h₁ T (Nat.le_trans (Nat.le_max_left ..) hT), ho]
    exact h₂ T (Nat.le_trans (Nat.le_max_right ..) hT)

theorem takeIn_lateBound (x : Schedule I σ) (t : Instant) :
    ∃ T₀, ∀ T, T₀ ≤ T → x.takeIn (some T) t = x.takeIn none t := by
  unfold takeIn
  split
  · split
    · dsimp only
      split
      · next body announcement gate hc hopen hfree =>
        obtain ⟨T₀, h⟩ := lend_lateBound (x.line ++ [body])
          { x with closing := none, line := x.line ++ [body] } t
        exact ⟨T₀, fun T hT => congrArg Prod.fst (h T hT)⟩
      · exact ⟨0, fun T _ => rfl⟩
    · exact ⟨0, fun T _ => rfl⟩
  · exact ⟨0, fun T _ => rfl⟩

/-- A bound that is late enough is none. -/
theorem advance_lateBound (x : Schedule I σ) :
    ∃ T₀, ∀ T, T₀ ≤ T → x.advance (some T) = x.advance none := by
  obtain ⟨T₁, h₁⟩ := work_lateBound x.prepare
  obtain ⟨T₂, h₂⟩ := takeIn_lateBound (x.prepare.work none).1 (x.prepare.work none).2
  refine ⟨max T₁ T₂, fun T hT => ?_⟩
  rw [advance_eq, advance_eq, h₁ T (Nat.le_trans (Nat.le_max_left ..) hT)]
  exact h₂ T (Nat.le_trans (Nat.le_max_right ..) hT)

/-! ## Orderly schedules -/

/-- What holds of a schedule whatever has been issued: it follows the bodies, and a close that has
not got in line yet will. -/
structure Orderly (P : Protocol I S) (link : S → σ → Prop)
    (spec : Body I → S → Outcome (Except Failure Unit) → S → Prop) (s₀ : S) (issued : List (Body I))
    (x : Schedule I σ) : Prop where
  follows : Follows P link spec s₀ issued x
  meets : ∀ b ∈ issued, Meets P spec b
  numbered : Numbered issued
  quiet : ∀ c, x.closing = some c → Discreet link c.announcement
  gateBehind : GateBehind issued x
  armed : ∀ k, x.armed = some k → k < issued.length

namespace Orderly

/-- The clock has no part in it. -/
theorem at_ (h : Orderly P link spec s₀ issued x) (t : Instant) :
    Orderly P link spec s₀ issued { x with now := t } :=
  { h with follows := h.follows.carry rfl rfl rfl fun _ => id }

theorem advance (hP : P.Governs link) (bound : Option Instant)
    (h : Orderly P link spec s₀ issued x) :
    Orderly P link spec s₀ issued (x.advance bound) := by
  have harmed : ∀ k, (x.advance bound).armed = some k → k < issued.length := by
    obtain ha | ha := advance_armed bound x
    · rw [ha]
      exact h.armed
    · rw [ha]
      nofun
  have hclosing := advance_closing bound x
  refine ⟨h.follows.advance hP bound h.meets h.quiet, h.meets, h.numbered, ?_, ?_, harmed⟩
  · rcases hx : x.closing with _ | c
    · rw [hx, Option.map_none, or_self] at hclosing
      rw [hclosing]
      nofun
    · obtain hc | hc := hclosing
      · rw [hc, hx]
        rintro _ ⟨⟩
        exact h.quiet c hx
      · rw [hc]
        nofun
  · have hopen : (x.advance bound).closing = none → GateBehind issued (x.advance bound) := by
      intro hc k hk
      simp only [gated, hc] at hk
      simpa [hc] using harmed k hk
    rcases hx : x.closing with _ | c
    · rw [hx, Option.map_none, or_self] at hclosing
      exact hopen hclosing
    · obtain hc | hc := hclosing
      · rw [hx, Option.map_some] at hc
        intro k hk
        simp only [gated, hc] at hk
        simpa [hc, hx] using h.gateBehind k hk
      · exact hopen hc

theorem elapseTo (hP : P.Governs link) (t : Instant) (h : Orderly P link spec s₀ issued x) :
    Orderly P link spec s₀ issued (x.elapseTo t) :=
  (h.advance hP (some (t + 1))).at_ _

theorem advance_ends (hP : P.Governs link) (h : Orderly P link spec s₀ issued x) :
    ∀ k < issued.length, (x.advance none).hasEnded k = true :=
  h.follows.advance_ends hP h.meets h.quiet h.numbered h.gateBehind

/-- **From some instant on everything that was issued has ended.** -/
theorem elapse_ends (hP : P.Governs link) (h : Orderly P link spec s₀ issued x) :
    ∃ t₀, ∀ t, t₀ ≤ t → ∀ k < issued.length, (x.elapseTo t).hasEnded k = true := by
  obtain ⟨T₀, hT⟩ := advance_lateBound x
  refine ⟨T₀, fun t ht k hk => ?_⟩
  have hlate : x.advance (some (t + 1)) = x.advance none := hT _ (Nat.le_succ_of_le ht)
  have hends := h.advance_ends hP k hk
  rw [← hlate] at hends
  exact hends

end Orderly

/-! ## Waiting for a body -/

omit [Machine I σ] in
theorem endingOf?_eq_some {k : Nat} {e : Ending} (h : x.endingOf? k = some e) :
    e ∈ x.endings ∧ e.serial = k :=
  ⟨List.mem_of_find?_eq_some h, by simpa using List.find?_some h⟩

theorem envelope_eq_some {α : Type} {start t : Instant} {expiry : Option Instant}
    {ending : Option (Instant × Outcome (Except Failure α))} {r : Except Failure α}
    (h : envelope start expiry ending = some (t, r)) :
    (r = .error .timedOut ∧ expiry ≠ none) ∨ ∃ t' o, ending = some (t', o) ∧ r = o.toResult := by
  unfold envelope at h
  split at h
  · cases h
  · cases h
    exact .inr ⟨_, _, rfl, rfl⟩
  · cases h
    exact .inl ⟨rfl, nofun⟩
  · split at h
    · cases h
      exact .inr ⟨_, _, rfl, rfl⟩
    · cases h
      exact .inl ⟨rfl, nofun⟩

theorem envelope_eq_none {α : Type} {start : Instant} {expiry : Option Instant}
    {ending : Option (Instant × Outcome (Except Failure α))}
    (h : envelope start expiry ending = none) :
    expiry = none ∧ ending = none := by
  unfold envelope at h
  split at h
  · exact ⟨rfl, rfl⟩
  · cases h
  · cases h
  · split at h <;> cases h

/-- **What a caller is told**: nothing has moved and time was out before; or the schedule has
advanced, and time ran out or the body's ending is told; or, without a deadline, the body never
ends. -/
theorem await_cases (x : Schedule I σ) (k : Nat) (expiry : Option Instant) :
    (x.await k expiry = (some (.error .timedOut), x) ∧ expiry ≠ none) ∨
    (∃ t r, x.await k expiry = (some r, { x.advance (expiry.map (· + 1)) with now := t }) ∧
      ((r = .error .timedOut ∧ expiry ≠ none) ∨
        ∃ e ∈ (x.advance (expiry.map (· + 1))).endings, e.serial = k ∧ r = e.outcome.toResult)) ∨
    (x.await k expiry = (none, x.advance none) ∧ expiry = none ∧
      (x.advance none).hasEnded k = false) := by
  unfold await
  split
  · next hout =>
    refine .inl ⟨rfl, ?_⟩
    rintro rfl
    cases hout
  · refine .inr ?_
    dsimp only
    rcases henv : envelope x.now expiry (((x.advance (expiry.map (· + 1))).endingOf? k).map fun e =>
      (e.time, e.outcome)) with _ | ⟨t, r⟩
    · obtain ⟨rfl, hend⟩ := envelope_eq_none henv
      rw [Option.map_eq_none_iff] at hend
      rw [henv]
      refine .inr ⟨rfl, rfl, ?_⟩
      simpa [hasEnded, endingOf?] using hend
    · rw [henv]
      refine .inl ⟨t, r, rfl, ?_⟩
      obtain hout | ⟨t', o, hend, hr⟩ := envelope_eq_some henv
      · exact .inl hout
      · obtain ⟨e, he, heq⟩ := Option.map_eq_some_iff.1 hend
        cases heq
        exact .inr ⟨e, (endingOf?_eq_some he).1, (endingOf?_eq_some he).2, hr⟩

/-- After a call the schedule is as it was, if the context was done already, or it has been
advanced. -/
theorem await_snd (x : Schedule I σ) (k : Nat) (expiry : Option Instant) :
    (x.await k expiry).2 = x ∨ ∃ bound t,
      (x.await k expiry).2 = { x.advance bound with now := t } := by
  obtain ⟨heq, -⟩ | ⟨t, r, heq, -⟩ | ⟨heq, -⟩ := await_cases x k expiry
  · exact .inl (congrArg Prod.snd heq)
  · exact .inr ⟨_, t, congrArg Prod.snd heq⟩
  · exact .inr ⟨none, (x.advance none).now, congrArg Prod.snd heq⟩

end Stairway.Schedule
