import Stairway.Proofs.Controller.Gate

/-!
# Operations issued one after the other

An `Errand` is an operation together with the circumstances of its call: how long its caller rests
before, and how its context ends. `Schedule.follow` runs a list of them, each issued when the call
before has returned, whether or not the body of that call has ended by then.

`Ready` is what holds of a schedule between two calls. Every call returns and leaves the schedule
ready (`Ready.perform`), and so does a list of them (`Ready.follow_numbered`, `Ready.follow`); what
the callers were told is `Told`: that time ran out, or how their own body ended in the state that
the bodies before it had left.
-/

namespace Stairway

/-- An operation, and the circumstances under which it is called. -/
structure Errand where
  /-- How long the caller rests before; `none`: the call follows the one before at once. -/
  pause : Option Duration := none
  kind : Transition
  desired : Nat
  /-- The deadline of the context, by which the body sets its lock timeout. -/
  deadline : Option Instant := none
  /-- The instant from which the context is done. -/
  expiry : Option Instant := none

/-- The same operation under a context that is never done. -/
def Errand.inBackground (errand : Errand) : Errand :=
  { errand with deadline := none, expiry := none }

/-- The body's program, which does not know the context. -/
def Errand.program {I : Interface} (errand : Errand) (e : Engine I) :
    Option Duration → Program I (Except Failure Unit) :=
  e.operation errand.kind errand.desired

@[simp] theorem Errand.program_inBackground {I : Interface} (errand : Errand) (e : Engine I) :
    errand.inBackground.program e = errand.program e := rfl

/-- The body that is issued under a number. -/
def Errand.body {I : Interface} (errand : Errand) (e : Engine I) (serial : Nat) : Body I :=
  ⟨serial, errand.deadline, errand.program e⟩

namespace Schedule

variable {I : Interface} {S σ : Type}

section

variable [Machine I σ]

/-- Lets time pass between two calls. -/
def rest (x : Schedule I σ) : Option Duration → Schedule I σ
  | none => x
  | some d => x.elapseTo (x.now + d)

/-- Runs a list of errands, each once the call before has returned: what the callers were told, and
the schedule after the last call. -/
def follow (e : Engine I) :
    List Errand → Schedule I σ → List (Option (Except Failure Unit)) × Schedule I σ
  | [], x => ([], x)
  | errand :: errands, x =>
    let (told, x) :=
      (x.rest errand.pause).perform e errand.kind errand.desired errand.deadline errand.expiry
    let (others, x) := x.follow e errands
    (told :: others, x)

/-- Runs a list of errands and then, after a rest, a close: what the caller of the close was told,
and the schedule then. -/
def followClose (e : Engine I) (isBenign : String → Bool) (errands : List Errand)
    (pause : Option Duration) (expiry : Option Instant) (x : Schedule I σ) :
    Option (Except Failure Unit) × Schedule I σ :=
  ((x.follow e errands).2.rest pause).close e isBenign expiry

end

/-! ## Endings -/

variable {P : Protocol I S} {link : S → σ → Prop}
  {spec : Body I → S → Outcome (Except Failure Unit) → S → Prop} {s₀ : S}
  {issued : List (Body I)} {x : Schedule I σ}

/-- An ending is that of a body, from the state that the bodies before it had left. -/
theorem Served.of_mem {bodies : List (Body I)} {endings : List Ending} {s : S}
    (h : Served spec s₀ bodies endings s) {e : Ending} (he : e ∈ endings) :
    ∃ front b back before u t, bodies = front ++ b :: back ∧ e.serial = b.serial ∧
      Served spec s₀ front before u ∧ spec b u e.outcome t := by
  induction h with
  | none => cases he
  | @next bodies endings s t b last before serial effect ih =>
    rcases List.mem_append.1 he with he | he
    · obtain ⟨front, c, back, earlier, u, v, rfl, hserial, hserved, hspec⟩ := ih he
      exact ⟨front, c, back ++ [b], earlier, u, v, by simp, hserial, hserved, hspec⟩
    · cases List.mem_singleton.1 he
      exact ⟨bodies, b, [], endings, s, t, rfl, serial, before, effect⟩

/-- An ending with a number is that of the body issued under this number. -/
theorem Follows.of_mem (h : Follows P link spec s₀ issued x) (hn : Numbered issued) {e : Ending}
    (he : e ∈ x.endings) :
    ∃ front b back before u t, issued = front ++ b :: back ∧ e.serial = front.length ∧
      Served spec s₀ front before u ∧ spec b u e.outcome t := by
  cases h with
  | free holder served linked =>
    obtain ⟨front, b, back, before, u, t, rfl, hserial, hserved, hspec⟩ := served.of_mem he
    refine ⟨front, b, back ++ x.waiting, before, u, t, by simp, ?_, hserved, hspec⟩
    rw [List.append_assoc] at hn
    exact hserial.trans hn.serial_at
  | @held _ _ s t c a holder served reached obeys linked =>
    obtain ⟨front, b, back, before, u, t, rfl, hserial, hserved, hspec⟩ := served.of_mem he
    refine ⟨front, b, back ++ c :: x.waiting, before, u, t, by simp, ?_, hserved, hspec⟩
    rw [List.append_assoc] at hn
    exact hserial.trans hn.serial_at

/-- A body that gets in line behind those that wait. -/
theorem Follows.enqueue (h : Follows P link spec s₀ issued x) {y : Schedule I σ} {b : Body I}
    (holder : y.holder = x.holder) (endings : y.endings = x.endings) (engine : y.engine = x.engine)
    (waiting : y.waiting = x.waiting ++ [b]) : Follows P link spec s₀ (issued ++ [b]) y := by
  cases h with
  | free free served linked =>
    rw [List.append_assoc, ← waiting]
    exact .free (holder.trans free) (endings ▸ served) (engine ▸ linked)
  | held held served reached obeys linked =>
    rw [List.append_assoc, List.cons_append, ← waiting]
    exact .held (holder.trans held) (endings ▸ served) reached obeys (engine ▸ linked)

/-! ## Between two calls -/

variable [Machine I σ]

/-- What holds of a schedule between two calls, before any close. -/
structure Ready (P : Protocol I S) (link : S → σ → Prop)
    (spec : Body I → S → Outcome (Except Failure Unit) → S → Prop) (s₀ : S) (issued : List (Body I))
    (x : Schedule I σ) : Prop extends Orderly P link spec s₀ issued x where
  closing : x.closing = none
  next : x.next = issued.length

namespace Ready

/-- A schedule for which nothing has been issued. -/
theorem start (s₀ : S) (now : Instant) {m : σ} (hl : link s₀ m) :
    Ready P link spec s₀ [] ({ engine := m, now := now } : Schedule I σ) where
  follows := Follows.free (x := { engine := m, now := now }) rfl .none hl
  meets := nofun
  numbered := rfl
  quiet := nofun
  gateBehind := nofun
  armed := nofun
  closing := rfl
  next := rfl

/-- Bodies that meet one specification meet another that says less of them. -/
theorem mono {spec' : Body I → S → Outcome (Except Failure Unit) → S → Prop}
    (h : Ready P link spec s₀ issued x)
    (hspec : ∀ b ∈ issued, ∀ s o t, spec b s o t → spec' b s o t) :
    Ready P link spec' s₀ issued x where
  follows := by
    have hfollows := h.follows
    cases hfollows with
    | free holder served linked =>
      exact .free holder (served.mono fun b hb => hspec b (List.mem_append_left _ hb)) linked
    | @held _ ended _ _ b _ holder served reached obeys linked =>
      exact .held holder (served.mono fun c hc => hspec c (List.mem_append_left _ hc)) reached
        (obeys.mono (hspec b (by simp) _)) linked
  meets := fun b hb s now => (h.meets b hb s now).mono (hspec b hb s)
  numbered := h.numbered
  quiet := h.quiet
  gateBehind := h.gateBehind
  armed := h.armed
  closing := h.closing
  next := h.next

/-- A schedule whose engine is linked in another way. -/
theorem carry {link' : S → σ → Prop} (h : Ready P link spec s₀ issued x)
    (engine : ∀ s, link s x.engine → link' s x.engine) : Ready P link' spec s₀ issued x where
  follows := h.follows.carry rfl rfl rfl engine
  meets := h.meets
  numbered := h.numbered
  quiet := by
    rw [h.closing]
    nofun
  gateBehind := h.gateBehind
  armed := h.armed
  closing := h.closing
  next := h.next

theorem meets_snoc (h : Ready P link spec s₀ issued x) {b : Body I} (hb : Meets P spec b) :
    ∀ c ∈ issued ++ [b], Meets P spec c := by
  simp only [List.mem_append, List.mem_singleton]
  rintro c (hc | rfl)
  · exact h.meets c hc
  · exact hb

theorem issue (h : Ready P link spec s₀ issued x) {deadline : Option Instant}
    {program : Option Duration → Program I (Except Failure Unit)}
    (hb : Meets P spec ⟨issued.length, deadline, program⟩) :
    Ready P link spec s₀ (issued ++ [⟨issued.length, deadline, program⟩])
      (x.issue deadline program).2 where
  follows := h.follows.enqueue rfl rfl rfl (by simp [Schedule.issue, waiting, h.closing, h.next])
  meets := h.meets_snoc hb
  numbered := h.numbered.snoc rfl
  quiet := by simp [Schedule.issue, h.closing]
  gateBehind := by
    intro k hk
    simp only [Schedule.issue, gated, h.closing, h.next, Option.some.injEq] at hk ⊢
    simp [← hk]
  armed := by simp [Schedule.issue, h.next]
  closing := h.closing
  next := by simp [Schedule.issue, h.next]

/-- A close waits for no operation but those issued before. -/
theorem issueClose (h : Ready P link spec s₀ issued x) {announcement : Program I Unit}
    {program : Program I (Except Failure Unit)} (hquiet : Discreet link announcement)
    (hb : Meets P spec ⟨issued.length, none, fun _ => program⟩) :
    Orderly P link spec s₀ (issued ++ [⟨issued.length, none, fun _ => program⟩])
      (x.issueClose announcement program).2 where
  follows :=
    h.follows.enqueue rfl rfl rfl (by simp [Schedule.issueClose, waiting, h.closing, h.next])
  meets := h.meets_snoc hb
  numbered := h.numbered.snoc rfl
  quiet := by
    rintro _ ⟨⟩
    exact hquiet
  gateBehind := by
    intro k hk
    simpa [Schedule.issueClose] using h.armed k hk
  armed := fun k hk => Nat.lt_of_lt_of_le (h.armed k hk) (by simp)

theorem advance (hP : P.Governs link) (bound : Option Instant) (h : Ready P link spec s₀ issued x) :
    Ready P link spec s₀ issued (x.advance bound) := by
  have hdesk : SameDesk x (x.advance bound) := by
    have hprepare : x.prepare = x := by simp [Schedule.prepare, h.closing]
    have htaken : x.advance bound = (x.work bound).1 := by
      rw [advance_eq, hprepare]
      simp [Schedule.takeIn, (work_sameDesk bound x).closing, h.closing]
    exact htaken ▸ work_sameDesk bound x
  exact { h.toOrderly.advance hP bound with
    closing := hdesk.closing.trans h.closing
    next := hdesk.next.trans h.next }

theorem at_ (h : Ready P link spec s₀ issued x) (t : Instant) :
    Ready P link spec s₀ issued { x with now := t } :=
  { h.toOrderly.at_ t with closing := h.closing, next := h.next }

theorem elapseTo (hP : P.Governs link) (t : Instant) (h : Ready P link spec s₀ issued x) :
    Ready P link spec s₀ issued (x.elapseTo t) :=
  (h.advance hP (some (t + 1))).at_ _

theorem rest (hP : P.Governs link) (pause : Option Duration) (h : Ready P link spec s₀ issued x) :
    Ready P link spec s₀ issued (x.rest pause) := by
  cases pause with
  | none => exact h
  | some d => exact h.elapseTo hP _

/-- **A call returns**, and leaves the schedule ready for the next. Its caller is told that time ran
out or how the body ended, and under a context that is never done every body has ended by then. -/
theorem perform (hP : P.Governs link) (h : Ready P link spec s₀ issued x) (e : Engine I)
    (errand : Errand) (hb : Meets P spec (errand.body e issued.length)) :
    ∃ r y, x.perform e errand.kind errand.desired errand.deadline errand.expiry = (some r, y) ∧
      Ready P link spec s₀ (issued ++ [errand.body e issued.length]) y ∧
      ((r = .error .timedOut ∧ errand.expiry ≠ none) ∨ ∃ endings s o t,
        Served spec s₀ issued endings s ∧ spec (errand.body e issued.length) s o t ∧
          r = o.toResult) ∧
      (errand.expiry = none →
        ∀ k < (issued ++ [errand.body e issued.length]).length, y.hasEnded k = true) := by
  have hissued := h.issue hb
  have hperform : x.perform e errand.kind errand.desired errand.deadline errand.expiry =
      (x.issue errand.deadline (errand.program e)).2.await issued.length errand.expiry :=
    congrArg (Schedule.await _ · errand.expiry) h.next
  rw [hperform]
  change Ready P link spec s₀ (issued ++ [errand.body e issued.length]) _ at hissued
  generalize (x.issue errand.deadline (errand.program e)).2 = y at hissued
  have hends := hissued.advance_ends hP
  obtain ⟨heq, hout⟩ | ⟨t, r, heq, hr⟩ | ⟨-, -, hnever⟩ := await_cases y issued.length errand.expiry
  · exact ⟨_, _, heq, hissued, .inl ⟨rfl, hout⟩, fun hnone => absurd hnone hout⟩
  · have hready := hissued.advance hP (errand.expiry.map (· + 1))
    refine ⟨r, _, heq, hready.at_ t, ?_, ?_⟩
    · obtain hout | ⟨ending, hmem, hserial, rfl⟩ := hr
      · exact .inl hout
      · obtain ⟨front, c, back, before, u, v, hsplit, hlength, hserved, hspec⟩ :=
          hready.follows.of_mem hready.numbered hmem
        obtain ⟨rfl, htail⟩ := List.append_inj hsplit (hserial.symm.trans hlength)
        obtain ⟨rfl, -⟩ := List.cons.inj htail
        exact .inr ⟨before, u, ending.outcome, v, hserved, hspec, rfl⟩
    · intro hnone
      rw [hnone]
      exact hends
  · have := hends issued.length (by simp)
    rw [hnever] at this
    cases this

end Ready

/-! ## Lists of errands -/

/-- What callers may be told whose errands follow the bodies `issued`: each that time ran out, if
its context could be done at all, or how its own body ended. -/
inductive Told (e : Engine I) (spec : Body I → S → Outcome (Except Failure Unit) → S → Prop)
    (s₀ : S) :
    List (Body I) → List Errand → List (Body I) → List (Option (Except Failure Unit)) → Prop where
  | nil {issued : List (Body I)} : Told e spec s₀ issued [] [] []
  | cons {issued bodies : List (Body I)} {errand : Errand} {errands : List Errand} {b : Body I}
      {r : Except Failure Unit} {results : List (Option (Except Failure Unit))}
      (program : b.program = errand.program e)
      (answer : (r = .error .timedOut ∧ errand.expiry ≠ none) ∨
        ∃ endings s o t, Served spec s₀ issued endings s ∧ spec b s o t ∧ r = o.toResult)
      (others : Told e spec s₀ (issued ++ [b]) errands bodies results) :
      Told e spec s₀ issued (errand :: errands) (b :: bodies) (some r :: results)

theorem Told.programs {e : Engine I} {errands : List Errand} {bodies : List (Body I)}
    {results : List (Option (Except Failure Unit))}
    (h : Told e spec s₀ issued errands bodies results) :
    bodies.map (·.program) = errands.map (·.program e) := by
  induction h with
  | nil => rfl
  | cons program _ _ ih => rw [List.map_cons, List.map_cons, program, ih]

/-- **Every call of a list returns**, each caller is told how its own body ended unless time ran
out, and the schedule has served the bodies in the order of the list. What a body has to meet may
depend on its number. -/
theorem Ready.follow_numbered (hP : P.Governs link) {e : Engine I} (errands : List Errand) :
    ∀ {issued : List (Body I)} {x : Schedule I σ},
      Ready P link spec s₀ issued x →
      (∀ k (errand : Errand), errands[k]? = some errand →
        Meets P spec (errand.body e (issued.length + k))) →
      ∃ bodies, Told e spec s₀ issued errands bodies (x.follow e errands).1 ∧
        Ready P link spec s₀ (issued ++ bodies) (x.follow e errands).2 ∧
        ((∀ errand ∈ errands, errand.expiry = none) →
          (∀ k < issued.length, x.hasEnded k = true) →
          ∀ k < (issued ++ bodies).length, (x.follow e errands).2.hasEnded k = true) := by
  induction errands with
  | nil =>
    intro issued x h _
    refine ⟨[], .nil, ?_, fun _ hended => ?_⟩
    · rw [List.append_nil]
      exact h
    · rw [List.append_nil]
      exact hended
  | cons errand errands ih =>
    intro issued x h hmeets
    obtain ⟨r, y, heq, hready, hr, hended⟩ := (h.rest hP errand.pause).perform hP e errand
      (hmeets 0 errand rfl)
    obtain ⟨bodies, htold, hready', hended'⟩ := ih hready fun k other hk => by
      have hother := hmeets (k + 1) other hk
      rwa [List.length_append, List.length_singleton, Nat.add_assoc, Nat.add_comm 1 k]
    refine ⟨errand.body e issued.length :: bodies, ?_, ?_, fun hnone _ => ?_⟩
    · simp only [Schedule.follow, heq]
      exact .cons rfl hr htold
    · simp only [Schedule.follow, heq]
      simpa using hready'
    · simp only [Schedule.follow, heq]
      simpa using hended' (fun c hc => hnone c (List.mem_cons_of_mem errand hc))
        (hended (hnone errand List.mem_cons_self))

/-- Every call of a list returns where all bodies meet the same. -/
theorem Ready.follow (hP : P.Governs link) {e : Engine I}
    (hmeets : ∀ (errand : Errand) n, Meets P spec (errand.body e n)) (errands : List Errand)
    (h : Ready P link spec s₀ issued x) :
    ∃ bodies, Told e spec s₀ issued errands bodies (x.follow e errands).1 ∧
      Ready P link spec s₀ (issued ++ bodies) (x.follow e errands).2 ∧
      ((∀ errand ∈ errands, errand.expiry = none) →
        (∀ k < issued.length, x.hasEnded k = true) →
        ∀ k < (issued ++ bodies).length, (x.follow e errands).2.hasEnded k = true) :=
  h.follow_numbered hP errands fun _ errand _ => hmeets errand _

end Schedule

end Stairway
