import Stairway.Proofs.Program.Finish

/-!
# What a program asks

An `Exchange` is a request with its answer and the instants of both. `transcript` lists the
exchanges of a program that nobody cuts off, in order, by the same recursion as `finish`. It is put
together along a program (`transcript_bind`, `transcript_andThen`).

Where it does not matter which machine answers, the transcript is read off a protocol: `hearing ok`
allows the requests of which `ok` holds, and its state is what has been asked. What a program obeys
under it is true of its transcript on every machine (`Obeys.transcript`).

Where it does matter, `Protocol.heard` keeps what has been asked beside the state of another
protocol. A program obeys the two together (`Obeys.heard`), and on a machine that the other one
governs what it obeys is true of its transcript and of its end (`Obeys.heard_transcript`).
-/

namespace Stairway

/-- A request that was made and answered. -/
structure Exchange (I : Interface) where
  request : I.Request
  sent : Instant
  answer : I.Answer request
  answered : Instant

/-- An end with another result. -/
def Outcome.map {α β : Type} (g : α → β) : Outcome α → Outcome β
  | .finished a => .finished (g a)
  | .crashed => .crashed

namespace Program

variable {I : Interface} {σ α β ε : Type} [Machine I σ]

/-! ## Transcripts -/

/-- What a program asks that is started at `now` and never cut off. -/
def transcript : Program I α → Instant → σ → List (Exchange I)
  | done _, _, _ => []
  | crash, _, _ => []
  | pause d next, now, m => next.transcript (now + d) m
  | race d next, now, m => (next false).transcript (now + d) m
  | ask r next, now, m =>
    let (a, m, t) := waitFor r now m
    ⟨r, now, a, t⟩ :: (next a).transcript t m

/-- What the rest of a program asks, where its first part has ended. -/
def End.onward (e : End σ α) (f : α → Program I β) : List (Exchange I) :=
  match e.outcome with
  | .finished a => (f a).transcript e.now e.machine
  | .crashed => []

theorem transcript_bind (p : Program I α) (f : α → Program I β) : ∀ (now : Instant) (m : σ),
    (p.bind f).transcript now m = p.transcript now m ++ (p.finish now m).onward f := by
  induction p with
  | done a => exact fun now m => rfl
  | crash => exact fun now m => rfl
  | pause d next ih => exact fun now m => ih _ _
  | race d next ih => exact fun now m => ih _ _ _
  | ask r next ih => exact fun now m => congrArg (_ :: ·) (ih _ _ _)

/-- A cleanup asks where the program before it has ended. -/
theorem transcript_ensuring (p : Program I α) (cleanup : Program I Unit) :
    ∀ (now : Instant) (m : σ),
    (p.ensuring cleanup).transcript now m =
      p.transcript now m ++ cleanup.transcript (p.finish now m).now (p.finish now m).machine := by
  have hlast : ∀ (q : Program I α) (now : Instant) (m : σ), (∀ t n, q.transcript t (n : σ) = []) →
      (cleanup.bind fun _ => q).transcript now m = cleanup.transcript now m := by
    intro q now m hq
    rw [transcript_bind]
    unfold End.onward
    split
    · rw [hq, List.append_nil]
    · exact List.append_nil _
  induction p with
  | done a => exact fun now m => hlast (done a) now m fun _ _ => rfl
  | crash => exact fun now m => hlast crash now m fun _ _ => rfl
  | pause d next ih => exact fun now m => ih _ _
  | race d next ih => exact fun now m => ih _ _ _
  | ask r next ih => exact fun now m => congrArg (_ :: ·) (ih _ _ _)

/-! ## Programs whose result is changed -/

theorem finish_bindDone (p : Program I α) (g : α → β) (now : Instant) (m : σ) :
    (p.bind fun a => .done (g a)).finish now m =
      ⟨(p.finish now m).outcome.map g, (p.finish now m).machine, (p.finish now m).now⟩ := by
  rw [finish_bind]
  unfold End.andThen
  split <;> rename_i h <;> rw [h] <;> rfl

theorem outcome_bindDone (p : Program I α) (g : α → β) (now : Instant) (m : σ) :
    ((p.bind fun a => .done (g a)).finish now m).outcome = (p.finish now m).outcome.map g := by
  rw [finish_bindDone]

theorem transcript_bindDone (p : Program I α) (g : α → β) (now : Instant) (m : σ) :
    (p.bind fun a => .done (g a)).transcript now m = p.transcript now m := by
  rw [transcript_bind]
  unfold End.onward
  split <;> simp only [transcript, List.append_nil]

/-! ## Programs that may fail -/

section AndThen

variable {x : ExceptT ε (Program I) α} {f : α → ExceptT ε (Program I) β} {now : Instant} {m : σ}

/-- What a program that may fail comes to and asks, where its first part succeeds. -/
theorem andThen_ok {a : α} (h : (x.run.finish now m).outcome = .finished (.ok a)) :
    (x >>= f).run.finish now m = (f a).run.finish (x.run.finish now m).now
      (x.run.finish now m).machine ∧
      (x >>= f).run.transcript now m = x.run.transcript now m ++
        (f a).run.transcript (x.run.finish now m).now (x.run.finish now m).machine := by
  constructor
  · refine (finish_bind (p := x.run) _ now m).trans ?_
    unfold End.andThen
    rw [h]
    rfl
  · refine (transcript_bind (p := x.run) _ now m).trans ?_
    unfold End.onward
    rw [h]
    rfl

/-- Where it fails. -/
theorem andThen_error {e : ε} (h : (x.run.finish now m).outcome = .finished (.error e)) :
    (x >>= f).run.finish now m =
        ⟨.finished (.error e), (x.run.finish now m).machine, (x.run.finish now m).now⟩ ∧
      (x >>= f).run.transcript now m = x.run.transcript now m := by
  constructor
  · refine (finish_bind (p := x.run) _ now m).trans ?_
    unfold End.andThen
    rw [h]
    rfl
  · refine (transcript_bind (p := x.run) _ now m).trans ?_
    unfold End.onward
    rw [h]
    exact List.append_nil _

/-- Where it breaks off. -/
theorem andThen_crashed (h : (x.run.finish now m).outcome = .crashed) :
    (x >>= f).run.finish now m = ⟨.crashed, (x.run.finish now m).machine,
      (x.run.finish now m).now⟩ ∧
      (x >>= f).run.transcript now m = x.run.transcript now m := by
  constructor
  · refine (finish_bind (p := x.run) _ now m).trans ?_
    unfold End.andThen
    rw [h]
  · refine (transcript_bind (p := x.run) _ now m).trans ?_
    unfold End.onward
    rw [h]
    exact List.append_nil _

end AndThen

/-! ## Transcripts on any machine -/

/-- The protocol of programs that ask only what is `ok`; its state is what has been asked. -/
def hearing (ok : I.Request → Prop) : Protocol I (List (Exchange I)) where
  allows _ r := ok r
  leads s r a t := ∃ sent answered, t = s ++ [⟨r, sent, a, answered⟩]

/-- Who may ask less may ask more. -/
theorem Obeys.allowing {ok ok' : I.Request → Prop} (hok : ∀ r, ok r → ok' r)
    {Q : Outcome α → List (Exchange I) → Prop} {p : Program I α} :
    ∀ {s : List (Exchange I)}, p.Obeys (hearing ok) Q s → p.Obeys (hearing ok') Q s := by
  induction p with
  | done a => exact id
  | crash => exact id
  | pause d next ih => exact ih
  | race d next ih => exact fun h cut => ih cut (h cut)
  | ask r next ih => exact fun h => ⟨hok r h.1, fun a t ht => ih a (h.2 a t ht)⟩

/-- **What a program obeys is true of its transcript**, whoever answers. -/
theorem Obeys.transcript {ok : I.Request → Prop} {Q : Outcome α → List (Exchange I) → Prop}
    {p : Program I α} :
    ∀ {s : List (Exchange I)}, p.Obeys (hearing ok) Q s → ∀ (now : Instant) (m : σ),
      (∀ e ∈ p.transcript now m, ok e.request) ∧
        Q (p.finish now m).outcome (s ++ p.transcript now m) := by
  induction p with
  | done a =>
    intro s h now m
    exact ⟨nofun, (List.append_nil s).symm ▸ h⟩
  | crash =>
    intro s h now m
    exact ⟨nofun, (List.append_nil s).symm ▸ h⟩
  | pause d next ih => exact fun h now m => ih h _ m
  | race d next ih => exact fun h now m => ih false (h false) _ m
  | ask r next ih =>
    intro s h now m
    obtain ⟨hrest, hend⟩ := ih _ (h.2 (waitFor r now m).1 _ ⟨now, (waitFor r now m).2.2, rfl⟩)
      (waitFor r now m).2.2 (waitFor r now m).2.1
    refine ⟨?_, ?_⟩
    · rintro e (_ | ⟨_, he⟩)
      · exact h.1
      · exact hrest e he
    · rw [List.append_assoc] at hend
      exact hend

/-- What every request leaves true of the transcript is true at the end. -/
theorem Obeys.keeps {ok : I.Request → Prop} {R : List (Exchange I) → Prop}
    (hR : ∀ s e, ok e.request → R s → R (s ++ [e])) {Q : Outcome α → List (Exchange I) → Prop}
    {p : Program I α} :
    ∀ {s : List (Exchange I)}, p.Obeys (hearing ok) Q s → R s →
      p.Obeys (hearing ok) (fun o t => Q o t ∧ R t) s := by
  induction p with
  | done a => exact fun h hs => ⟨h, hs⟩
  | crash => exact fun h hs => ⟨h, hs⟩
  | pause d next ih => exact ih
  | race d next ih => exact fun h hs cut => ih cut (h cut) hs
  | ask r next ih =>
    refine fun h hs => ⟨h.1, ?_⟩
    rintro a _ ⟨sent, answered, rfl⟩
    exact ih a (h.2 a _ ⟨sent, answered, rfl⟩) (hR _ ⟨r, sent, a, answered⟩ h.1 hs)

end Program

/-! ## Transcripts on a machine that is governed -/

/-- A protocol, and what has been asked. -/
def Protocol.heard {I : Interface} {S : Type} (P : Protocol I S) :
    Protocol I (S × List (Exchange I)) where
  allows s r := P.allows s.1 r
  leads s r a t := P.leads s.1 r a t.1 ∧ ∃ sent answered, t.2 = s.2 ++ [⟨r, sent, a, answered⟩]

namespace Program

variable {I : Interface} {S σ α : Type} {P : Protocol I S}

/-- **What a program obeys by itself and what it asks** are obeyed together. -/
theorem Obeys.heard {ok : I.Request → Prop} {Q : Outcome α → S → Prop}
    {R : Outcome α → List (Exchange I) → Prop} {p : Program I α} :
    ∀ {s : S} {l : List (Exchange I)}, p.Obeys P Q s → p.Obeys (hearing ok) R l →
      p.Obeys P.heard (fun o t => Q o t.1 ∧ R o t.2) (s, l) := by
  induction p with
  | done a => exact fun hQ hR => ⟨hQ, hR⟩
  | crash => exact fun hQ hR => ⟨hQ, hR⟩
  | pause d next ih => exact ih
  | race d next ih => exact fun hQ hR cut => ih cut (hQ cut) (hR cut)
  | ask r next ih =>
    refine fun hQ hR => ⟨hQ.1, ?_⟩
    rintro a ⟨t, l'⟩ ⟨hlead, sent, answered, hl⟩
    exact ih a (hQ.2 a t hlead) (hR.2 a l' ⟨sent, answered, hl⟩)

variable [Machine I σ] {link : S → σ → Prop}

/-- **What a program obeys is true of its transcript and of its end**, on a machine that is
governed. -/
theorem Obeys.heard_transcript (hP : P.Governs link) {Q : Outcome α → S × List (Exchange I) → Prop}
    {p : Program I α} : ∀ {s : S} {l : List (Exchange I)} {m : σ}, p.Obeys P.heard Q (s, l) →
      link s m → ∀ now, ∃ t, link t (p.finish now m).machine ∧
      Q (p.finish now m).outcome (t, l ++ p.transcript now m) := by
  induction p with
  | done a => exact fun h hl now => ⟨_, hl, (List.append_nil _).symm ▸ h⟩
  | crash => exact fun h hl now => ⟨_, hl, (List.append_nil _).symm ▸ h⟩
  | pause d next ih => exact fun h hl now => ih h hl _
  | race d next ih => exact fun h hl now => ih false (h false) hl _
  | ask r next ih =>
    intro s l m h hl now
    have harrive := hP.arrive r now hl h.1
    obtain ⟨t, hlead, hl'⟩ := hP.answer r (waitFor r now m).2.2 harrive h.1
    obtain ⟨u, hlink, hend⟩ :=
      ih _ (h.2 _ (t, l ++ [⟨r, now, (waitFor r now m).1, (waitFor r now m).2.2⟩])
        ⟨hlead, now, _, rfl⟩) hl' (waitFor r now m).2.2
    refine ⟨u, hlink, ?_⟩
    rw [List.append_assoc] at hend
    exact hend

end Program

end Stairway
