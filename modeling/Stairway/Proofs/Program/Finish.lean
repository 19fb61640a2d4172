import Stairway.Proofs.Program.Protocol

/-!
# Programs that run to their end

A program that nobody cuts off and whose context is never done comes to one end: `finish` gives its
outcome, the machine that it leaves and the instant, by recursion on the program, and
`run_eq_finish` says that this is what a run without a bound does. It composes (`finish_bind`,
`finish_ensuring`) and does not go back in time (`le_finish`).

`Ensures` is what a program does to one machine up to a limit: whenever it is started, if it ends
before the limit then it ends as `Q` says. `Alike` compares two programs over different machines:
started on related machines they have the same outcome and leave related machines. Both are put
together along a program as `Obeys` is.
-/

namespace Stairway.Program

variable {I J : Interface} {σ τ α β ε : Type} [Machine I σ] [Machine J τ]

/-! ## Ends -/

/-- How a program ended, the machine then, and the instant. -/
structure End (σ α : Type) where
  outcome : Outcome α
  machine : σ
  now : Instant

/-- A request that is made at `now` and waited for: its answer, the machine then, and
the instant. -/
def waitFor (r : I.Request) (now : Instant) (m : σ) : I.Answer r × σ × Instant :=
  let (delay, m) := Machine.arrive r now m
  let t := now + delay.getD 0
  let (a, m) := Machine.answer r t m
  (a, m, t)

/-- What a program comes to that is started at `now` and never cut off. -/
def finish : Program I α → Instant → σ → End σ α
  | done a, now, m => ⟨.finished a, m, now⟩
  | crash, now, m => ⟨.crashed, m, now⟩
  | pause d next, now, m => next.finish (now + d) m
  | race d next, now, m => (next false).finish (now + d) m
  | ask r next, now, m =>
    let (a, m, t) := waitFor r now m
    (next a).finish t m

/-- **A run without a bound comes to the end of its program.** -/
theorem run_eq_finish (p : Program I α) : ∀ (now : Instant) (m : σ),
    p.run none none now m =
      ⟨.ended (p.finish now m).outcome, (p.finish now m).machine, (p.finish now m).now⟩ := by
  induction p with
  | done a => exact fun now m => rfl
  | crash => exact fun now m => rfl
  | pause d next ih => exact fun now m => ih (now + d) m
  | race d next ih =>
    intro now m
    simp only [run_race, isBefore_none, Bool.or_true, if_true]
    exact ih false (now + d) m
  | ask r next ih =>
    intro now m
    rcases h : Machine.arrive r now m with ⟨_ | d, m'⟩
    · rw [run_ask_now h, ih]
      simp only [finish, waitFor, h]
      rfl
    · rw [run_ask_later h, isBefore_none, if_pos rfl, ih]
      simp only [finish, waitFor, h]
      rfl

/-- **What a program obeys is true of its end.** -/
theorem Obeys.finish {S : Type} {P : Protocol I S} {link : S → σ → Prop} {Q : Outcome α → S → Prop}
    {p : Program I α} {s : S} {m : σ} (h : p.Obeys P Q s) (hP : P.Governs link) (hl : link s m)
    (now : Instant) :
    ∃ t, link t (p.finish now m).machine ∧ Q (p.finish now m).outcome t := by
  have hrun : ∃ t, P.Reaches s t ∧ link t (p.run none none now m).machine ∧
      (p.run none none now m).activity.Obeys P Q t := hP.run none none h hl
  rw [run_eq_finish] at hrun
  obtain ⟨t, -, hlink, hend⟩ := hrun
  exact ⟨t, hlink, hend⟩

/-- What comes of the rest of a program, where its first part has ended. -/
def End.andThen (e : End σ α) (f : α → Program I β) : End σ β :=
  match e.outcome with
  | .finished a => (f a).finish e.now e.machine
  | .crashed => ⟨.crashed, e.machine, e.now⟩

theorem finish_bind (p : Program I α) (f : α → Program I β) : ∀ (now : Instant) (m : σ),
    (p.bind f).finish now m = (p.finish now m).andThen f := by
  induction p with
  | done a => exact fun now m => rfl
  | crash => exact fun now m => rfl
  | pause d next ih => exact fun now m => ih _ _
  | race d next ih => exact fun now m => ih _ _ _
  | ask r next ih => exact fun now m => ih _ _ _

/-- What comes of a cleanup, where the program before it has ended. -/
def End.cleaned (e : End σ α) (cleanup : Program I Unit) : End σ α :=
  { cleanup.finish e.now e.machine with
    outcome := match (cleanup.finish e.now e.machine).outcome with
      | .finished _ => e.outcome
      | .crashed => .crashed }

theorem finish_ensuring (p : Program I α) (cleanup : Program I Unit) : ∀ (now : Instant) (m : σ),
    (p.ensuring cleanup).finish now m = (p.finish now m).cleaned cleanup := by
  have hlast : ∀ (o : Outcome α) (q : Program I α) (now : Instant) (m : σ),
      (∀ t n, q.finish t n = (⟨o, n, t⟩ : End σ α)) →
      (cleanup.bind fun _ => q).finish now m = (⟨o, m, now⟩ : End σ α).cleaned cleanup := by
    intro o q now m hq
    rw [finish_bind]
    unfold End.andThen End.cleaned
    cases (cleanup.finish now m).outcome with
    | finished _ => exact hq _ _
    | crashed => rfl
  induction p with
  | done a => exact fun now m => hlast (.finished a) (done a) now m fun _ _ => rfl
  | crash => exact fun now m => hlast .crashed crash now m fun _ _ => rfl
  | pause d next ih => exact fun now m => ih _ _
  | race d next ih => exact fun now m => ih _ _ _
  | ask r next ih => exact fun now m => ih _ _ _

theorem le_finish (p : Program I α) : ∀ (now : Instant) (m : σ), now ≤ (p.finish now m).now := by
  induction p with
  | done a => exact fun now m => Nat.le_refl now
  | crash => exact fun now m => Nat.le_refl now
  | pause d next ih => exact fun now m => Nat.le_trans (Nat.le_add_right now d) (ih _ _)
  | race d next ih => exact fun now m => Nat.le_trans (Nat.le_add_right now d) (ih _ _ _)
  | ask r next ih => exact fun now m => Nat.le_trans (Nat.le_add_right now _) (ih _ _ _)

theorem End.le_andThen (e : End σ α) (f : α → Program I β) : e.now ≤ (e.andThen f).now := by
  unfold End.andThen
  cases e.outcome with
  | finished a => exact le_finish _ _ _
  | crashed => exact Nat.le_refl _

/-! ## What a program ensures -/

/-- What is known of the clock while a program runs. -/
structure Clock where
  /-- Nothing is said of programs that end at this instant or later. -/
  limit : Instant
  /-- Whether no request takes time. -/
  stands : Prop

/-- Started at any time, a program that ends before the limit ends as `Q` says, and where no request
takes time it takes none. -/
structure Ensures (clock : Clock) (p : Program I α) (Q : Outcome α → σ → Prop) (m : σ) : Prop where
  holds : ∀ now, (p.finish now m).now < clock.limit →
    Q (p.finish now m).outcome (p.finish now m).machine
  stands : clock.stands → ∀ now < clock.limit, (p.finish now m).now = now

variable {clock : Clock} {m : σ}

theorem Ensures.mono {p : Program I α} {Q R : Outcome α → σ → Prop} (h : p.Ensures clock Q m)
    (hQR : ∀ o m, Q o m → R o m) : p.Ensures clock R m :=
  ⟨fun now hlimit => hQR _ _ (h.holds now hlimit), h.stands⟩

theorem Ensures.done {a : α} {Q : Outcome α → σ → Prop} (h : Q (.finished a) m) :
    (Program.done a : Program I α).Ensures clock Q m :=
  ⟨fun _ _ => h, fun _ _ _ => rfl⟩

theorem Ensures.bind {p : Program I α} {f : α → Program I β} {R : Outcome α → σ → Prop}
    {Q : Outcome β → σ → Prop} (h : p.Ensures clock R m)
    (hf : ∀ a n, R (.finished a) n → (f a).Ensures clock Q n)
    (hcrash : ∀ n, R .crashed n → Q .crashed n) : (p.bind f).Ensures clock Q m := by
  constructor
  · intro now hlimit
    rw [finish_bind] at hlimit ⊢
    have hfirst := h.holds now (Nat.lt_of_le_of_lt (End.le_andThen _ f) hlimit)
    unfold End.andThen at hlimit ⊢
    generalize p.finish now m = e at hfirst hlimit ⊢
    obtain ⟨o, n, t⟩ := e
    cases o with
    | finished a => exact (hf a n hfirst).holds t hlimit
    | crashed => exact hcrash n hfirst
  · intro hstands now hlimit
    have htime := h.stands hstands now hlimit
    have hfirst := h.holds now (by rwa [htime])
    rw [finish_bind]
    unfold End.andThen
    generalize p.finish now m = e at htime hfirst ⊢
    obtain ⟨o, n, t⟩ := e
    obtain rfl : t = now := htime
    cases o with
    | finished a => exact (hf a n hfirst).stands hstands t hlimit
    | crashed => rfl

theorem Ensures.ensuring {p : Program I α} {c : Program I Unit} {R Q : Outcome α → σ → Prop}
    (h : p.Ensures clock R m)
    (hc : ∀ o n, R o n → c.Ensures clock (fun o' n' => o' = .finished () ∧ Q o n') n) :
    (p.ensuring c).Ensures clock Q m := by
  constructor
  · intro now hlimit
    rw [finish_ensuring] at hlimit ⊢
    unfold End.cleaned at hlimit ⊢
    have hfirst := h.holds now (Nat.lt_of_le_of_lt (le_finish _ _ _) hlimit)
    obtain ⟨hdone, hQ⟩ := (hc _ _ hfirst).holds _ hlimit
    rw [hdone]
    exact hQ
  · intro hstands now hlimit
    have htime := h.stands hstands now hlimit
    have hfirst := h.holds now (by rwa [htime])
    have hclean := (hc _ _ hfirst).stands hstands now hlimit
    rw [finish_ensuring]
    unfold End.cleaned
    rwa [htime]

/-- A program that answers with a value, of which `ok` holds. -/
def Yields (clock : Clock) (p : Program I (Except ε α)) (ok : α → σ → Prop) (m : σ) : Prop :=
  p.Ensures clock (fun o n => ∃ a, o = .finished (.ok a) ∧ ok a n) m

theorem Yields.mono {p : Program I (Except ε α)} {ok ok' : α → σ → Prop} (h : p.Yields clock ok m)
    (hok : ∀ a n, ok a n → ok' a n) : p.Yields clock ok' m := by
  refine Ensures.mono h ?_
  rintro _ n ⟨a, rfl, ha⟩
  exact ⟨a, rfl, hok a n ha⟩

theorem Yields.done {a : α} {ok : α → σ → Prop} (h : ok a m) :
    (Program.done (.ok a) : Program I (Except ε α)).Yields clock ok m :=
  Ensures.done ⟨a, rfl, h⟩

theorem Yields.ensures_andThen {x : ExceptT ε (Program I) α} {f : α → ExceptT ε (Program I) β}
    {R : α → σ → Prop} {Q : Outcome (Except ε β) → σ → Prop} (h : x.run.Yields clock R m)
    (hf : ∀ a n, R a n → (f a).run.Ensures clock Q n) : (x >>= f).run.Ensures clock Q m := by
  refine Ensures.bind (p := x.run) h ?_ ?_
  · rintro r n ⟨a, ha, hR⟩
    cases ha
    exact hf a n hR
  · rintro n ⟨a, ⟨⟩, -⟩

theorem Yields.andThen {x : ExceptT ε (Program I) α} {f : α → ExceptT ε (Program I) β}
    {R : α → σ → Prop} {ok : β → σ → Prop} (h : x.run.Yields clock R m)
    (hf : ∀ a n, R a n → (f a).run.Yields clock ok n) : (x >>= f).run.Yields clock ok m :=
  Yields.ensures_andThen h hf

/-! ## Two programs that come to the same -/

/-- Started on related machines, two programs have the same outcome, of which `V` holds, and leave
related machines, if the second one ends before the limit; where no request takes time the second
one takes none. -/
structure Alike (clock : Clock) (R : σ → τ → Prop) (V : α → Prop) (p : Program I α)
    (q : Program J α) : Prop where
  holds : ∀ m n, R m n → ∀ t u, (q.finish u n).now < clock.limit →
    (p.finish t m).outcome = (q.finish u n).outcome ∧
      (∀ a, (p.finish t m).outcome = .finished a → V a) ∧
      R (p.finish t m).machine (q.finish u n).machine
  stands : clock.stands → ∀ m n, R m n → ∀ u < clock.limit, (q.finish u n).now = u

variable {R : σ → τ → Prop} {V : α → Prop} {W : β → Prop} {p : Program I α} {q : Program J α}

theorem Alike.done {a : α} (ha : V a) :
    Alike clock R V (.done a : Program I α) (.done a : Program J α) where
  holds m n hR t u _ := by
    refine ⟨rfl, ?_, hR⟩
    rintro _ ⟨⟩
    exact ha
  stands _ _ _ _ _ _ := rfl

theorem Alike.mono {V' : α → Prop} (h : Alike clock R V p q) (hV : ∀ a, V a → V' a) :
    Alike clock R V' p q where
  holds m n hR t u hlimit := by
    obtain ⟨ho, hvalue, hR'⟩ := h.holds m n hR t u hlimit
    exact ⟨ho, fun a ha => hV a (hvalue a ha), hR'⟩
  stands := h.stands

theorem Alike.bind {f : α → Program I β} {g : α → Program J β} (h : Alike clock R V p q)
    (hfg : ∀ a, V a → Alike clock R W (f a) (g a)) : Alike clock R W (p.bind f) (q.bind g) := by
  constructor
  · intro m n hR t u hlimit
    rw [finish_bind] at hlimit
    rw [finish_bind, finish_bind]
    obtain ⟨ho, hV, hR'⟩ := h.holds m n hR t u (Nat.lt_of_le_of_lt (End.le_andThen _ g) hlimit)
    unfold End.andThen at hlimit ⊢
    generalize p.finish t m = d at ho hV hR' ⊢
    generalize q.finish u n = e at ho hR' hlimit ⊢
    obtain ⟨o, m', t'⟩ := d
    obtain ⟨o', n', u'⟩ := e
    obtain rfl : o = o' := ho
    cases o with
    | finished a => exact (hfg a (hV a rfl)).holds m' n' hR' t' u' hlimit
    | crashed => exact ⟨rfl, nofun, hR'⟩
  · intro hstands m n hR u hlimit
    have htime := h.stands hstands m n hR u hlimit
    obtain ⟨ho, hV, hR'⟩ := h.holds m n hR u u (by rwa [htime])
    rw [finish_bind]
    unfold End.andThen
    generalize p.finish u m = d at ho hV hR' ⊢
    generalize q.finish u n = e at ho hR' htime ⊢
    obtain ⟨o, m', t'⟩ := d
    obtain ⟨o', n', u'⟩ := e
    obtain rfl : o = o' := ho
    obtain rfl : u' = u := htime
    cases o with
    | finished a => exact (hfg a (hV a rfl)).stands hstands m' n' hR' u' hlimit
    | crashed => rfl

theorem Alike.ensuring {c : Program I Unit} {d : Program J Unit} (h : Alike clock R V p q)
    (hcd : Alike clock R (fun _ => True) c d) : Alike clock R V (p.ensuring c) (q.ensuring d) := by
  constructor
  · intro m n hR t u hlimit
    rw [finish_ensuring] at hlimit
    rw [finish_ensuring, finish_ensuring]
    unfold End.cleaned at hlimit ⊢
    obtain ⟨ho, hV, hR'⟩ := h.holds m n hR t u (Nat.lt_of_le_of_lt (le_finish _ _ _) hlimit)
    obtain ⟨ho', -, hR''⟩ := hcd.holds _ _ hR' (p.finish t m).now _ hlimit
    rw [← ho', ← ho]
    refine ⟨rfl, ?_, hR''⟩
    intro a ha
    split at ha
    · exact hV a ha
    · cases ha
  · intro hstands m n hR u hlimit
    have htime := h.stands hstands m n hR u hlimit
    obtain ⟨-, -, hR'⟩ := h.holds m n hR u u (by rwa [htime])
    have hclean := hcd.stands hstands _ _ hR' u hlimit
    rw [finish_ensuring]
    unfold End.cleaned
    rwa [htime]

/-- What holds of the value that a program answers with, if it does. -/
def OnValue (V : α → Prop) : Except ε α → Prop
  | .ok a => V a
  | .error _ => True

theorem Alike.andThen {x : ExceptT ε (Program I) α} {y : ExceptT ε (Program J) α}
    {f : α → ExceptT ε (Program I) β} {g : α → ExceptT ε (Program J) β}
    (h : Alike clock R (OnValue V) x.run y.run)
    (hfg : ∀ a, V a → Alike clock R (OnValue W) (f a).run (g a).run) :
    Alike clock R (OnValue W) (x >>= f).run (y >>= g).run := by
  refine Alike.bind (p := x.run) (q := y.run) h ?_
  rintro (e | a) ha
  · exact .done trivial
  · exact hfg a ha

end Stairway.Program
