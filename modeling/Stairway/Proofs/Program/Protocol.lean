import Stairway.Program

/-!
# Programs that keep to a protocol

A `Protocol` says which requests may be asked in a state and which state each answer leads to; the
state is a bookkeeping of ours that no program sees. `Program.Obeys P Q s` says that from `s` on a
program asks only what `P` allows, however it is answered, and that `Q` holds of its outcome and of
the state at its end. It is one recursion on the program, so a part of a program is looked at once
(`obeys_bind`, `Obeys.andThen`) and its caller goes on from what is known of it.

A protocol *governs* a machine if the machine, linked to a state, answers as the protocol says. Then
what a program obeys is true of its runs (`Governs.run`), also of those that are cut off and taken
up again (`Governs.resume`), and what has begun can be brought to an end (`Governs.conclude`).
-/

namespace Stairway

/-- What may be asked in a state, and where an answer leads. -/
structure Protocol (I : Interface) (S : Type) where
  allows : S → I.Request → Prop
  leads : S → (r : I.Request) → I.Answer r → S → Prop

namespace Protocol

variable {I : Interface} {S : Type}

/-- States that come one after the other when allowed requests are answered. -/
inductive Reaches (P : Protocol I S) : S → S → Prop where
  | refl (s : S) : Reaches P s s
  | step {s t u : S} {r : I.Request} {a : I.Answer r} (hr : P.allows s r) (ha : P.leads s r a t)
      (rest : Reaches P t u) : Reaches P s u

theorem Reaches.trans {P : Protocol I S} {s t u : S} (h₁ : P.Reaches s t) (h₂ : P.Reaches t u) :
    P.Reaches s u := by
  induction h₁ with
  | refl => exact h₂
  | step hr ha _ ih => exact .step hr ha (ih h₂)

end Protocol

/-! ## Programs -/

namespace Program

variable {I : Interface} {S α β ε : Type}

/-- From `s` on a program asks only what the protocol allows, and it ends as `Q` says. -/
def Obeys (P : Protocol I S) : Program I α → (Outcome α → S → Prop) → S → Prop
  | done a, Q, s => Q (.finished a) s
  | crash, Q, s => Q .crashed s
  | pause _ next, Q, s => next.Obeys P Q s
  | race _ next, Q, s => ∀ cut, (next cut).Obeys P Q s
  | ask r next, Q, s => P.allows s r ∧ ∀ a t, P.leads s r a t → (next a).Obeys P Q t

variable {P : Protocol I S}

theorem Obeys.mono {Q R : Outcome α → S → Prop} {p : Program I α} (hQR : ∀ o s, Q o s → R o s) :
    ∀ {s}, p.Obeys P Q s → p.Obeys P R s := by
  induction p with
  | done a => exact hQR _ _
  | crash => exact hQR _ _
  | pause d next ih => exact ih
  | race d next ih => exact fun h cut => ih cut (h cut)
  | ask r next ih => exact fun h => ⟨h.1, fun a t ha => ih a (h.2 a t ha)⟩

/-- What is asked of the rest of a program, where its first part has ended. -/
def afterwards (P : Protocol I S) (f : α → Program I β) (Q : Outcome β → S → Prop) :
    Outcome α → S → Prop
  | .finished a, s => (f a).Obeys P Q s
  | .crashed, s => Q .crashed s

theorem obeys_bind {p : Program I α} {f : α → Program I β} {Q : Outcome β → S → Prop} :
    ∀ {s}, (p.bind f).Obeys P Q s ↔ p.Obeys P (afterwards P f Q) s := by
  induction p with
  | done a => exact Iff.rfl
  | crash => exact Iff.rfl
  | pause d next ih => exact ih
  | race d next ih => exact forall_congr' fun cut => ih cut
  | ask r next ih =>
    exact and_congr_right fun _ => forall_congr' fun a => forall_congr' fun t =>
      imp_congr_right fun _ => ih a

/-- What is asked of a cleanup, where the program before it has ended. -/
def cleanedUp (P : Protocol I S) (cleanup : Program I Unit) (Q : Outcome α → S → Prop)
    (o : Outcome α) (s : S) : Prop :=
  cleanup.Obeys P (fun ended t => match ended with
    | .finished _ => Q o t
    | .crashed => Q .crashed t) s

theorem obeys_ensuring {p : Program I α} {cleanup : Program I Unit} {Q : Outcome α → S → Prop} :
    ∀ {s}, (p.ensuring cleanup).Obeys P Q s ↔ p.Obeys P (cleanedUp P cleanup Q) s := by
  induction p with
  | done a =>
    intro s
    refine obeys_bind.trans (Iff.of_eq (congrArg (cleanup.Obeys P · s) ?_))
    funext o t
    cases o <;> rfl
  | crash =>
    intro s
    refine obeys_bind.trans (Iff.of_eq (congrArg (cleanup.Obeys P · s) ?_))
    funext o t
    cases o <;> rfl
  | pause d next ih => exact ih
  | race d next ih => exact forall_congr' fun cut => ih cut
  | ask r next ih =>
    exact and_congr_right fun _ => forall_congr' fun a => forall_congr' fun t =>
      imp_congr_right fun _ => ih a

/-! ## Programs that may fail -/

/-- What is asked of the rest of a program that may fail, where its first part has ended. -/
def thereafter (P : Protocol I S) (f : α → ExceptT ε (Program I) β)
    (Q : Outcome (Except ε β) → S → Prop) : Outcome (Except ε α) → S → Prop
  | .finished (.ok a), s => (f a).run.Obeys P Q s
  | .finished (.error e), s => Q (.finished (.error e)) s
  | .crashed, s => Q .crashed s

theorem Obeys.andThen {x : ExceptT ε (Program I) α} {f : α → ExceptT ε (Program I) β}
    {Q : Outcome (Except ε β) → S → Prop} {s : S} (h : x.run.Obeys P (thereafter P f Q) s) :
    (x >>= f).run.Obeys P Q s := by
  refine (obeys_bind (p := x.run)).2 (h.mono ?_)
  rintro ((e | a) | _) t ht <;> exact ht

/-- What holds after a program that may fail: `ok` if it answers with a value, `failed` if with an
error, and `broken` if it breaks off. -/
def ending (ok : α → S → Prop) (failed broken : S → Prop) : Outcome (Except ε α) → S → Prop
  | .finished (.ok a), t => ok a t
  | .finished (.error _), t => failed t
  | .crashed, t => broken t

/-- What holds after a program that may fail: `ok` if it answers with a value, `ended` otherwise. -/
abbrev onSuccess (ok : α → S → Prop) (ended : S → Prop) : Outcome (Except ε α) → S → Prop :=
  ending ok ended ended

theorem Obeys.imp_ok {p : Program I (Except ε α)} {ok ok' : α → S → Prop} {failed broken : S → Prop}
    {s : S} (h : p.Obeys P (ending ok failed broken) s) (hok : ∀ a t, ok a t → ok' a t) :
    p.Obeys P (ending ok' failed broken) s := by
  refine h.mono ?_
  rintro ((e | a) | _) t ht
  · exact ht
  · exact hok a t ht
  · exact ht

/-- A condition on the state alone holds however a program ends. -/
theorem obeys_onSuccess {p : Program I (Except ε α)} {R : S → Prop} {s : S} :
    p.Obeys P (onSuccess (fun _ t => R t) R) s ↔ p.Obeys P (fun _ t => R t) s := by
  constructor <;> intro h
  · refine h.mono ?_
    rintro ((e | a) | _) t ht <;> exact ht
  · refine h.mono ?_
    rintro ((e | a) | _) t ht <;> exact ht

theorem Obeys.of_unbroken {p : Program I (Except ε α)} {ok : α → S → Prop}
    {failed broken : S → Prop} {s : S} (h : p.Obeys P (ending ok failed fun _ => False) s) :
    p.Obeys P (ending ok failed broken) s := by
  refine h.mono ?_
  rintro ((e | a) | _) t ht
  · exact ht
  · exact ht
  · exact ht.elim

/-- Going on where a first part succeeds. -/
theorem obeys_andThen {x : ExceptT ε (Program I) α} {f : α → ExceptT ε (Program I) β} {s : S}
    {R : α → S → Prop} {ok : β → S → Prop} {failed broken : S → Prop}
    (h : x.run.Obeys P (ending R failed broken) s)
    (hf : ∀ a t, R a t → (f a).run.Obeys P (ending ok failed broken) t) :
    (x >>= f).run.Obeys P (ending ok failed broken) s := by
  refine Program.Obeys.andThen (h.mono ?_)
  rintro ((e | a) | _) t ht
  · exact ht
  · exact hf a t ht
  · exact ht

end Program

/-! ## Activities -/

/-- What a program under way obeys: what is left of it does. -/
def Activity.Obeys {I : Interface} {S α : Type} (P : Protocol I S) :
    Activity I α → (Outcome α → S → Prop) → S → Prop
  | ended o, Q, s => Q o s
  | asleep _ next, Q, s => next.Obeys P Q s
  | awaiting _ r next, Q, s => (Program.ask r next).Obeys P Q s

theorem Activity.Obeys.mono {I : Interface} {S α : Type} {P : Protocol I S}
    {Q R : Outcome α → S → Prop} {a : Activity I α} (hQR : ∀ o s, Q o s → R o s) {s : S}
    (h : a.Obeys P Q s) : a.Obeys P R s := by
  cases a with
  | ended o => exact hQR _ _ h
  | asleep _ next => exact Program.Obeys.mono hQR (p := next) h
  | awaiting _ r next => exact Program.Obeys.mono hQR (p := .ask r next) h

/-! ## Machines -/

namespace Program

variable {I : Interface} {σ α : Type} [Machine I σ] {expiry bound : Option Instant} {now : Instant}
  {m m' : σ} {r : I.Request} {next : I.Answer r → Program I α}

theorem run_ask_now (h : Machine.arrive r now m = (none, m')) :
    (ask r next).run expiry bound now m =
      (next (Machine.answer r now m').1).run expiry bound now (Machine.answer r now m').2 := by
  rw [run_ask, h]

theorem run_ask_later {d : Duration} (h : Machine.arrive r now m = (some d, m')) :
    (ask r next).run expiry bound now m =
      if (now + d).isBefore bound then
        (next (Machine.answer r (now + d) m').1).run expiry bound (now + d)
          (Machine.answer r (now + d) m').2
      else ⟨.awaiting (now + d) r next, m', now⟩ := by
  rw [run_ask, h]

end Program

/-- A machine that is linked to a state answers as the protocol says, and its state stays linked. -/
structure Protocol.Governs {I : Interface} {S σ : Type} [Machine I σ] (P : Protocol I S)
    (link : S → σ → Prop) : Prop where
  arrive : ∀ {s m} (r : I.Request) (now : Instant), link s m → P.allows s r →
    link s (Machine.arrive r now m).2
  answer : ∀ {s m} (r : I.Request) (now : Instant), link s m → P.allows s r →
    ∃ t, P.leads s r (Machine.answer r now m).1 t ∧ link t (Machine.answer r now m).2

namespace Protocol.Governs

variable {I : Interface} {S σ α : Type} [Machine I σ] {P : Protocol I S} {link : S → σ → Prop}

/-- **A run keeps to what its program obeys**, however far it comes. -/
theorem run (hP : P.Governs link) (expiry bound : Option Instant) {Q : Outcome α → S → Prop}
    {p : Program I α} : ∀ {s now m}, p.Obeys P Q s → link s m →
      ∃ t, P.Reaches s t ∧ link t (p.run expiry bound now m).machine ∧
        (p.run expiry bound now m).activity.Obeys P Q t := by
  induction p with
  | done a => intro s now m h hl; exact ⟨s, .refl s, hl, h⟩
  | crash => intro s now m h hl; exact ⟨s, .refl s, hl, h⟩
  | pause d next ih =>
    intro s now m h hl
    rw [Program.run_pause]
    split
    · exact ih h hl
    · exact ⟨s, .refl s, hl, h⟩
  | race d next ih =>
    intro s now m h hl
    rw [Program.run_race]
    generalize (if (expiry.any fun e => decide (e ≤ now + d)) = true then max now (expiry.getD now)
      else now + d) = wake
    split
    · exact ih _ (h _) hl
    · exact ⟨s, .refl s, hl, h _⟩
  | ask r next ih =>
    intro s now m h hl
    have hlinked := hP.arrive r now hl h.1
    rcases harrive : Machine.arrive r now m with ⟨_ | d, m'⟩
    · rw [harrive] at hlinked
      obtain ⟨t, hlead, hl'⟩ := hP.answer r now hlinked h.1
      obtain ⟨u, hreach, hu⟩ := ih _ (h.2 _ t hlead) hl'
      rw [Program.run_ask_now harrive]
      exact ⟨u, .step h.1 hlead hreach, hu⟩
    · rw [harrive] at hlinked
      rw [Program.run_ask_later harrive]
      split
      · obtain ⟨t, hlead, hl'⟩ := hP.answer r (now + d) hlinked h.1
        obtain ⟨u, hreach, hu⟩ := ih _ (h.2 _ t hlead) hl'
        exact ⟨u, .step h.1 hlead hreach, hu⟩
      · exact ⟨s, .refl s, hlinked, h⟩

/-- A run that is taken up again keeps to what is left to obey. -/
theorem resume (hP : P.Governs link) (expiry bound : Option Instant) (now : Instant)
    {Q : Outcome α → S → Prop} {a : Activity I α} {s : S} {m : σ} (h : a.Obeys P Q s)
    (hl : link s m) :
    ∃ t, P.Reaches s t ∧ link t (a.run expiry bound now m).machine ∧
      (a.run expiry bound now m).activity.Obeys P Q t := by
  cases a with
  | ended o => exact ⟨s, .refl s, hl, h⟩
  | asleep wake next =>
    rw [Activity.run_asleep]
    split
    · exact hP.run expiry bound h hl
    · exact ⟨s, .refl s, hl, h⟩
  | awaiting wake r next =>
    rw [Activity.run_awaiting]
    split
    · obtain ⟨t, hlead, hl'⟩ := hP.answer r (max now wake) hl h.1
      obtain ⟨u, hreach, hu⟩ := hP.run expiry bound (h.2 _ t hlead) hl'
      exact ⟨u, .step h.1 hlead hreach, hu⟩
    · exact ⟨s, .refl s, hl, h⟩

end Protocol.Governs

/-! ## Ends -/

namespace Program

variable {I : Interface} {σ α : Type} [Machine I σ]

@[simp] theorem isBefore_none (t : Instant) : t.isBefore none = true := rfl

@[simp] theorem isBefore_some {t T : Instant} : t.isBefore (some T) = true ↔ t < T := by
  simp [Instant.isBefore]

/-- A program that nobody stops runs to its end. -/
theorem run_ends (expiry : Option Instant) (p : Program I α) : ∀ (now : Instant) (m : σ),
    ∃ o, (p.run expiry none now m).activity = .ended o := by
  induction p with
  | done a => exact fun now m => ⟨_, rfl⟩
  | crash => exact fun now m => ⟨_, rfl⟩
  | pause d next ih => exact fun now m => ih (now + d) m
  | race d next ih =>
    intro now m
    rw [run_race, isBefore_none, Bool.or_true, if_pos rfl]
    exact ih _ _ m
  | ask r next ih =>
    intro now m
    rcases harrive : Machine.arrive r now m with ⟨_ | d, m'⟩
    · rw [run_ask_now harrive]
      exact ih _ _ _
    · rw [run_ask_later harrive, isBefore_none, if_pos rfl]
      exact ih _ _ _

/-- A bound that is late enough is none. -/
theorem run_lateBound (expiry : Option Instant) (p : Program I α) : ∀ (now : Instant) (m : σ),
    ∃ T₀, ∀ T, T₀ ≤ T → p.run expiry (some T) now m = p.run expiry none now m := by
  induction p with
  | done a => exact fun now m => ⟨0, fun T _ => rfl⟩
  | crash => exact fun now m => ⟨0, fun T _ => rfl⟩
  | pause d next ih =>
    intro now m
    obtain ⟨T₀, h⟩ := ih (now + d) m
    refine ⟨max T₀ (now + d + 1), fun T hT => ?_⟩
    have hd : now + d < T := Nat.le_trans (Nat.le_max_right ..) hT
    rw [run_pause, run_pause, if_pos (isBefore_some.2 hd), if_pos (isBefore_none _)]
    exact h T (Nat.le_trans (Nat.le_max_left ..) hT)
  | race d next ih =>
    intro now m
    simp only [run_race]
    generalize (if (expiry.any fun e => decide (e ≤ now + d)) = true then max now (expiry.getD now)
      else now + d) = wake
    obtain ⟨T₀, h⟩ := ih (expiry.any (· ≤ now + d)) wake m
    refine ⟨max T₀ (wake + 1), fun T hT => ?_⟩
    have hd : wake < T := Nat.le_trans (Nat.le_max_right ..) hT
    simpa [hd] using h T (Nat.le_trans (Nat.le_max_left ..) hT)
  | ask r next ih =>
    intro now m
    rcases harrive : Machine.arrive r now m with ⟨_ | d, m'⟩
    · simp only [run_ask_now harrive]
      exact ih _ _ _
    · simp only [run_ask_later harrive]
      obtain ⟨T₀, h⟩ :=
        ih (Machine.answer r (now + d) m').1 (now + d) (Machine.answer r (now + d) m').2
      refine ⟨max T₀ (now + d + 1), fun T hT => ?_⟩
      have hd : now + d < T := Nat.le_trans (Nat.le_max_right ..) hT
      simpa [hd] using h T (Nat.le_trans (Nat.le_max_left ..) hT)

end Program

namespace Activity

variable {I : Interface} {σ α : Type} [Machine I σ]

theorem run_ends (expiry : Option Instant) (a : Activity I α) (now : Instant) (m : σ) :
    ∃ o, (a.run expiry none now m).activity = .ended o := by
  cases a with
  | ended o => exact ⟨o, rfl⟩
  | asleep wake next => exact next.run_ends expiry _ m
  | awaiting wake r next => exact (next _).run_ends expiry _ _

theorem run_lateBound (expiry : Option Instant) (a : Activity I α) (now : Instant) (m : σ) :
    ∃ T₀, ∀ T, T₀ ≤ T → a.run expiry (some T) now m = a.run expiry none now m := by
  cases a with
  | ended o => exact ⟨0, fun T _ => rfl⟩
  | asleep wake next =>
    obtain ⟨T₀, h⟩ := next.run_lateBound expiry (max now wake) m
    refine ⟨max T₀ (wake + 1), fun T hT => ?_⟩
    have hw : wake < T := Nat.le_trans (Nat.le_max_right ..) hT
    simpa [run_asleep, hw] using h T (Nat.le_trans (Nat.le_max_left ..) hT)
  | awaiting wake r next =>
    obtain ⟨T₀, h⟩ :=
      (next (Machine.answer r (max now wake) m).1).run_lateBound expiry (max now wake)
      (Machine.answer r (max now wake) m).2
    refine ⟨max T₀ (wake + 1), fun T hT => ?_⟩
    have hw : wake < T := Nat.le_trans (Nat.le_max_right ..) hT
    simpa [run_awaiting, hw] using h T (Nat.le_trans (Nat.le_max_left ..) hT)

end Activity

/-- What has begun can be brought to an end, and then it has ended as was asked. -/
theorem Protocol.Governs.conclude {I : Interface} {S σ α : Type} [Machine I σ] {P : Protocol I S}
    {link : S → σ → Prop} (hP : P.Governs link) {Q : Outcome α → S → Prop} {a : Activity I α}
    {s : S} {m : σ} (h : a.Obeys P Q s) (hl : link s m) : ∃ o t, P.Reaches s t ∧ Q o t := by
  obtain ⟨t, hreach, -, ht⟩ := hP.resume none none 0 h hl
  obtain ⟨o, ho⟩ := a.run_ends none 0 m
  exact ⟨o, t, hreach, by rwa [ho] at ht⟩

end Stairway
