import Stairway.Memory.Engine
import Stairway.Proofs.Controller.Erasure

/-!
# Close comes last

Operations are issued one after the other, some of them left behind by their callers, and then a
close. The gate follows only the operation issued last, but bodies have the engine in the order of
their issue: when the close has it, all of them have ended (`notes_of_follows`). So the engine is
closed once, after everything else that was asked of it, whether or not the caller of the close
waited that long; and a caller who is told how the close ended is told of every error of its two
sides that counts (`close_last`).
-/

namespace Stairway

/-- A program that does not break off. -/
def Program.Unbroken {I : Interface} {α : Type} : Program I α → Prop
  | .done _ => True
  | .crash => False
  | .pause _ next => next.Unbroken
  | .race _ next => ∀ cut, (next cut).Unbroken
  | .ask _ next => ∀ a, (next a).Unbroken

/-! ## What a close reports -/

/-- The errors of a close that count. -/
def leftover (isBenign : String → Bool) (result : CloseResult) : List EngineError :=
  result.source.toList ++ (result.database.filter fun err => !isBenign err.message).toList

/-- What is told of a close: success if nothing is left of its errors, and otherwise a failure that
is no time-out and has the texts of all that are left. -/
structure Reports (isBenign : String → Bool) (result : CloseResult)
    (told : Except Failure Unit) : Prop where
  ok : told = .ok () ↔
    result.source = none ∧ ∀ err, result.database = some err → isBenign err.message = true
  error : ∀ f, told = .error f → f.isTimedOut = false ∧
    f.text = "; ".intercalate ((leftover isBenign result).map (·.message))

/-- The end of the body of a close, from the notes `s` on. -/
inductive Closes (isBenign : String → Bool) (s : List Note) :
    Outcome (Except Failure Unit) → List Note → Prop where
  | answered {result : CloseResult} {told : Except Failure Unit}
      (report : Reports isBenign result told) :
    Closes isBenign s (.finished told) (s ++ [.close, .closed result])
  | brokenOff : Closes isBenign s .crashed (s ++ [.close])

variable {I : Interface} {σ : Type} {e : Engine I} {isBenign : String → Bool}

theorem reports_error {result : CloseResult} {f : Failure}
    (h : Engine.combineCloseErrors result.source
      (result.database.filter fun err => !isBenign err.message) = some f) :
    Reports isBenign result (.error f) := by
  rcases hs : result.source with _ | source <;>
    rcases hd : result.database.filter fun err => !isBenign err.message with _ | database <;>
    rw [hs, hd] at h <;> cases h
  · refine ⟨⟨nofun, fun hok => ?_⟩, ?_⟩
    · rw [Option.filter_eq_some_iff] at hd
      have := hok.2 database hd.1
      simp [this] at hd
    · rintro _ ⟨⟩
      exact ⟨by simp [Failure.isTimedOut], by rw [leftover, hs, hd]; rfl⟩
  · refine ⟨⟨nofun, fun hok => by simp [hs] at hok⟩, ?_⟩
    rintro _ ⟨⟩
    exact ⟨by simp [Failure.isTimedOut], by rw [leftover, hs, hd]; rfl⟩
  · refine ⟨⟨nofun, fun hok => by simp [hs] at hok⟩, ?_⟩
    rintro _ ⟨⟩
    exact ⟨by simp [Failure.isTimedOut], by rw [leftover, hs, hd]; rfl⟩

theorem reports_ok {result : CloseResult}
    (h : Engine.combineCloseErrors result.source
      (result.database.filter fun err => !isBenign err.message) = none) :
    Reports isBenign result (.ok ()) := by
  rcases hs : result.source with _ | source <;>
    rcases hd : result.database.filter fun err => !isBenign err.message with _ | database <;>
    rw [hs, hd] at h <;> cases h
  rw [Option.filter_eq_none_iff] at hd
  exact ⟨⟨fun _ => ⟨hs, fun err herr => by simpa using hd err herr⟩, fun _ => rfl⟩, nofun⟩

/-! ## The body of a close -/

/-- A program that does not break off and takes no notes ends with the notes as they were. -/
theorem unbroken_obeys {α : Type} {p : Program I α} (hp : p.Unbroken) {s : List Note} :
    p.noted.Obeys (noting I) (fun o t => (∃ a, o = .finished a) ∧ t = s) s := by
  induction p with
  | done a => exact ⟨⟨a, rfl⟩, rfl⟩
  | crash => exact hp.elim
  | pause d next ih => exact ih hp
  | race d next ih => exact fun cut => ih cut (hp cut)
  | ask r next ih =>
    refine ⟨trivial, ?_⟩
    rintro a _ rfl
    exact ih a (hp a)

theorem notedClose_obeys (s : List Note) : e.notedClose.Obeys (noting I)
    (fun o t => match o with
      | .finished result => t = s ++ [.close, .closed result]
      | .crashed => t = s ++ [.close]) s := by
  refine note_obeys (Program.obeys_bind.2 ((noted_obeys e.close).mono ?_))
  rintro (result | _) _ rfl
  · exact note_obeys (by simp [Program.Obeys])
  · rfl

theorem closing_obeys (hlog : ∀ line, (e.log line).Unbroken) (s : List Note) :
    (e.noted.closing isBenign).Obeys (noting I) (Closes isBenign s) s := by
  refine (Program.obeys_bind (p := e.noted.close)).2 ((notedClose_obeys s).mono ?_)
  rintro (result | _) _ rfl
  · simp only [Program.afterwards]
    split
    · next f hf => exact .answered (reports_error hf)
    · next hnone =>
      refine Program.obeys_bind.2 ((unbroken_obeys (hlog "Closed migrator")).mono ?_)
      rintro _ _ ⟨⟨_, rfl⟩, rfl⟩
      exact .answered (reports_ok hnone)
  · exact .brokenOff

/-- A close announces itself without a call. -/
theorem announceClose_discreet [Machine I σ] :
    Schedule.Discreet (fun s (m : Noting σ) => m.notes = s) e.noted.announceClose := by
  refine Schedule.discreet_of_obeys noting_governs fun s => ?_
  refine Program.obeys_bind.2 ((noted_obeys (e.log "Closing migrator")).mono ?_)
  rintro (_ | _) _ rfl
  · refine Program.obeys_bind.2 ((noted_obeys e.requestStop).mono ?_)
    rintro (_ | _) _ rfl <;> rfl
  · rfl

/-! ## Bodies and their notes -/

namespace Schedule

variable {n : Nat} {bodies : List (Body (Noted I))} {c : Body (Noted I)} {s : List Note}

/-- What bodies note: those with numbers below `n` are operations, and the one after them is a
close. -/
def NotesOf (isBenign : String → Bool) (n : Nat) (b : Body (Noted I)) (s : List Note)
    (o : Outcome (Except Failure Unit)) (t : List Note) : Prop :=
  if b.serial < n then Unclosed s t else Closes isBenign s o t

/-- The notes of operations alone. -/
theorem unclosed_of_served {ended : List (Body (Noted I))} {endings : List Ending}
    (h : Served (NotesOf isBenign n) [] ended endings s) (hlt : ∀ b ∈ ended, b.serial < n) :
    Unclosed [] s := by
  induction h with
  | none => exact .refl []
  | @next bodies endings s t b e before serial effect ih =>
    have hfront : Unclosed [] s := ih fun c hc => hlt c (List.mem_append_left _ hc)
    rw [NotesOf, if_pos (hlt b (by simp))] at effect
    exact hfront.trans effect

/-- How far a schedule has come on its way to the end of a close that was issued after `n`
operations. -/
inductive Stage (isBenign : String → Bool) (n : Nat)
    (x : Schedule (Noted I) (Noting σ)) : Prop where
  /-- An operation has the engine, or nobody. -/
  | before (notes : Unclosed [] x.engine.notes) (running : x.hasEnded n = false)
  /-- The close has the engine. -/
  | within {front : List Note} (ended : ∀ k < n, x.hasEnded k = true) (unclosed : Unclosed [] front)
    (notes : x.engine.notes = front ∨ x.engine.notes = front ++ [.close] ∨
      ∃ result, x.engine.notes = front ++ [.close, .closed result]) (running : x.hasEnded n = false)
  /-- The close has ended. -/
  | after {front : List Note} {ending : Ending} (ended : ∀ k < n, x.hasEnded k = true)
    (unclosed : Unclosed [] front) (closes : Closes isBenign front ending.outcome x.engine.notes)
    (only : ∀ other ∈ x.endings, other.serial = n → other = ending)

theorem Stage.last {x : Schedule (Noted I) (Noting σ)} (h : Stage isBenign n x)
    (hmem : Note.close ∈ x.engine.notes) : (∀ k < n, x.hasEnded k = true) ∧
      ∃ front, (∀ note ∈ front, note.isOfClose = false) ∧
        (x.engine.notes = front ++ [.close] ∨
          ∃ result, x.engine.notes = front ++ [.close, .closed result]) := by
  have hopen : ∀ {front : List Note}, Unclosed [] front → ∀ note ∈ front,
      note.isOfClose = false := by
    rintro _ ⟨block, rfl, hblock⟩
    simpa using hblock
  cases h with
  | before notes running =>
    have := hopen notes _ hmem
    cases this
  | within ended unclosed notes running =>
    obtain hfront | hnotes := notes
    · have := hopen (hfront ▸ unclosed) _ hmem
      cases this
    · exact ⟨ended, _, hopen unclosed, hnotes⟩
  | @after front ending ended unclosed closes only =>
    refine ⟨ended, front, hopen unclosed, ?_⟩
    generalize x.engine.notes = notes at closes
    generalize ending.outcome = o at closes
    cases closes with
    | answered report => exact .inr ⟨_, rfl⟩
    | brokenOff => exact .inl rfl

theorem Stage.close_mem {x : Schedule (Noted I) (Noting σ)} (h : Stage isBenign n x)
    (hended : x.hasEnded n = true) : Note.close ∈ x.engine.notes := by
  cases h with
  | before notes running => simp [hended] at running
  | within ended unclosed notes running => simp [hended] at running
  | @after front ending ended unclosed closes only =>
    generalize x.engine.notes = notes at closes
    generalize ending.outcome = o at closes
    cases closes <;> simp

theorem Stage.verdict {x : Schedule (Noted I) (Noting σ)} (h : Stage isBenign n x) {ending : Ending}
    (hmem : ending ∈ x.endings) (hserial : ending.serial = n) :
    (∃ front, x.engine.notes = front ++ [.close] ∧ ending.outcome.toResult = .error .brokenOff) ∨
    ∃ front result, x.engine.notes = front ++ [.close, .closed result] ∧
      Reports isBenign result ending.outcome.toResult := by
  have hended : x.hasEnded n = true := hasEnded_iff.2 (hserial ▸ List.mem_map_of_mem hmem)
  cases h with
  | before notes running => simp [hended] at running
  | within ended unclosed notes running => simp [hended] at running
  | @after front last ended unclosed closes only =>
    obtain rfl := only ending hmem hserial
    generalize x.engine.notes = notes at closes
    generalize ending.outcome = o at closes
    cases closes with
    | answered report => exact .inr ⟨front, _, rfl, report⟩
    | brokenOff => exact .inl ⟨front, rfl, rfl⟩

/-- A close is part of the way through its notes. -/
theorem notes_within {front t u : List Note} {o : Outcome (Except Failure Unit)}
    (hclose : Closes isBenign front o u) (hft : front <+: t) (htu : t <+: u) :
    t = front ∨ t = front ++ [.close] ∨ ∃ result, t = front ++ [.close, .closed result] := by
  obtain ⟨more, rfl⟩ := hft
  cases hclose with
  | @answered result told report =>
    rw [List.prefix_append_right_inj] at htu
    rcases more with _ | ⟨first, _ | ⟨second, more⟩⟩
    · exact .inl (List.append_nil _)
    · obtain ⟨rfl, -⟩ := List.cons_prefix_cons.1 htu
      exact .inr (.inl rfl)
    · obtain ⟨rfl, htail⟩ := List.cons_prefix_cons.1 htu
      obtain ⟨rfl, hnil⟩ := List.cons_prefix_cons.1 htail
      obtain rfl := List.prefix_nil.1 hnil
      exact .inr (.inr ⟨result, rfl⟩)
  | brokenOff =>
    rw [List.prefix_append_right_inj] at htu
    rcases more with _ | ⟨first, more⟩
    · exact .inl (List.append_nil _)
    · obtain ⟨rfl, hnil⟩ := List.cons_prefix_cons.1 htu
      obtain rfl := List.prefix_nil.1 hnil
      exact .inr (.inl rfl)

variable [Machine I σ]

/-- **Where a close stands**, in any schedule that follows the operations and the close
after them. -/
theorem Follows.stage {x : Schedule (Noted I) (Noting σ)} (hn : Numbered (bodies ++ [c]))
    (hlength : bodies.length = n)
    (h : Follows (noting I) (fun s m => m.notes = s) (NotesOf isBenign n) [] (bodies ++ [c]) x) :
    Stage isBenign n x := by
  have hserial : ∀ b ∈ bodies, b.serial < n := by
    intro b hb
    have := List.mem_map_of_mem (f := (·.serial)) hb
    rwa [hn.front, List.mem_range, hlength] at this
  have hclose : ¬ c.serial < n := by
    rw [hn.serial_at, hlength]
    exact Nat.lt_irrefl n
  have hrunning : ∀ {ended rest : List (Body (Noted I))} {s : List Note},
      bodies ++ [c] = ended ++ rest → ended.length ≤ n →
      Served (NotesOf isBenign n) [] ended x.endings s → x.hasEnded n = false := by
    intro ended rest s hsplit hle hserved
    rw [Bool.eq_false_iff, ne_eq, hserved.hasEnded_iff (hsplit ▸ hn)]
    omega
  generalize hissued : bodies ++ [c] = issued at h
  cases h with
  | @free _ ended s holder served linked =>
    rcases List.eq_nil_or_concat x.waiting with hw | ⟨rest, last, hw⟩
    · -- everything has ended, the close last
      rw [hw, List.append_nil] at hissued
      subst hissued
      have hn' : Numbered ((bodies ++ [c]) ++ []) := by rwa [List.append_nil]
      obtain ⟨before, ending, front, hendings, hbefore, hlast, heffect⟩ := served.last
      rw [NotesOf, if_neg hclose, ← linked] at heffect
      refine .after (fun k hk => (served.hasEnded_iff hn' k).2 ?_)
        (unclosed_of_served hbefore hserial) heffect ?_
      · simp only [List.length_append, List.length_singleton]
        omega
      · rw [hendings]
        intro other hother hnumber
        rcases List.mem_append.1 hother with hother | hother
        · have hmem : other.serial ∈ bodies.map (·.serial) :=
            hbefore.serials ▸ List.mem_map_of_mem hother
          obtain ⟨b, hb, heq⟩ := List.mem_map.1 hmem
          have := hserial b hb
          omega
        · exact List.mem_singleton.1 hother
    · -- the close still waits for the engine, which nobody has
      have hsplit := hissued
      rw [hw, List.concat_eq_append, ← List.append_assoc] at hissued
      obtain ⟨rfl, -⟩ := List.append_inj' hissued rfl
      refine .before ?_ (hrunning hsplit (by simp at hlength; omega) served)
      rw [linked]
      exact unclosed_of_served served fun b hb => hserial b (List.mem_append_left _ hb)
  | @held _ ended s t b a holder served reached obeys linked =>
    obtain ⟨o, u, hends, hspec⟩ := noting_governs.conclude obeys linked
    rcases List.eq_nil_or_concat x.waiting with hw | ⟨rest, last, hw⟩
    · -- the close has the engine
      have hsplit := hissued
      rw [hw] at hissued
      obtain ⟨rfl, hb⟩ := List.append_inj' hissued rfl
      obtain rfl := List.singleton_inj.1 hb
      rw [NotesOf, if_neg hclose] at hspec
      rw [← linked] at reached hends
      refine .within (fun k hk => (served.hasEnded_iff (hsplit ▸ hn) k).2 (by omega))
        (unclosed_of_served served hserial)
        (notes_within hspec (noting_extends reached) (noting_extends hends))
        (hrunning hsplit (by omega) served)
    · -- an operation has the engine
      have hsplit := hissued
      rw [hw, List.concat_eq_append, ← List.cons_append, ← List.append_assoc] at hissued
      obtain ⟨rfl, -⟩ := List.append_inj' hissued rfl
      rw [NotesOf, if_pos (hserial b (by simp))] at hspec
      refine .before ?_ (hrunning hsplit (by simp at hlength; omega) served)
      rw [linked]
      exact (unclosed_of_served served fun b hb => hserial b (List.mem_append_left _ hb)).trans
        (hspec.within (noting_extends reached) (noting_extends hends))

/-! ## The close of a controller -/

/-- What is true of a close that was issued after `n` operations: what its caller is told, and the
schedule at every later instant. The calls of the engine are read off the notes of `call`, which is
`run` otherwise. -/
structure ClosesLast (isBenign : String → Bool) (n : Nat)
    (run : Option (Except Failure Unit) × Schedule I σ)
    (call : Option (Except Failure Unit) × Schedule (Noted I) (Noting σ)) : Prop where
  /-- Taking notes changes nothing. -/
  same : run = (call.1, call.2.erase)
  /-- The call returns. -/
  returns : call.1 ≠ none
  /-- The engine is closed in the end, also where the caller has stopped waiting. -/
  closes : ∃ t₀, ∀ t, t₀ ≤ t → Note.close ∈ (call.2.elapseTo t).engine.notes
  /-- Once it is closed every operation has ended, and no call but this one is noted from then on.
  -/
  last : ∀ t, Note.close ∈ (call.2.elapseTo t).engine.notes →
    (∀ k < n, (call.2.elapseTo t).hasEnded k = true) ∧
    ∃ front, (∀ note ∈ front, note.isOfClose = false) ∧
      ((call.2.elapseTo t).engine.notes = front ++ [.close] ∨
        ∃ result, (call.2.elapseTo t).engine.notes = front ++ [.close, .closed result])
  /-- A caller who waited is told what came of the close. -/
  verdict : ∀ told, call.1 = some told → told ≠ .error .timedOut →
    (∃ front, call.2.engine.notes = front ++ [.close] ∧ told = .error .brokenOff) ∨
    ∃ front result, call.2.engine.notes = front ++ [.close, .closed result] ∧
      Reports isBenign result told

/-- **Close comes last**: after any list of operations, under any contexts, and under any context of
its own. -/
theorem close_last (hlog : ∀ line, (e.log line).Unbroken) (isBenign : String → Bool) (m : σ)
    (now : Instant) (errands : List Errand) (pause : Option Duration) (expiry : Option Instant) :
    ClosesLast isBenign errands.length
      (({ engine := m, now := now } : Schedule I σ).followClose e isBenign errands pause expiry)
      (({ engine := ⟨m, []⟩, now := now } : Schedule (Noted I) (Noting σ)).followClose
        e.noted isBenign
        errands pause expiry) := by
  have hsame := followClose_erase e isBenign errands pause expiry
    ({ engine := ⟨m, []⟩, now := now } : Schedule (Noted I) (Noting σ))
  rw [show ({ engine := m, now := now } : Schedule I σ) =
    ({ engine := ⟨m, []⟩, now := now } : Schedule (Noted I) (Noting σ)).erase from rfl, hsame]
  clear hsame
  unfold followClose
  have hstart : Ready (noting I) (fun s (m : Noting σ) => m.notes = s)
      (fun _ s _ t => Unclosed s t) [] []
      ({ engine := ⟨m, []⟩, now := now } : Schedule (Noted I) (Noting σ)) := .start [] now rfl
  obtain ⟨bodies, htold, hready, -⟩ := hstart.follow noting_governs
    (fun errand k s now => (unclosed_phases e errand.kind errand.desired s).operation _
      (.refl s)) errands
  generalize ({ engine := ⟨m, []⟩, now := now } : Schedule (Noted I) (Noting σ)).follow e.noted
    errands = run at htold hready ⊢
  have hlength : bodies.length = errands.length := by
    simpa using congrArg List.length htold.programs
  rw [List.nil_append] at hready
  have hready' : Ready (noting I) (fun s (m : Noting σ) => m.notes = s)
      (NotesOf isBenign errands.length) [] bodies _ := hready.mono fun b hb s o t h => by
    have hserial := List.mem_map_of_mem (f := (·.serial)) hb
    rw [hready.numbered, List.mem_range, hlength] at hserial
    rwa [NotesOf, if_pos hserial]
  have hx := hready'.rest noting_governs pause
  generalize run.2.rest pause = x at hx ⊢
  have hmeets : Meets (noting I) (NotesOf isBenign errands.length)
      ⟨bodies.length, none, fun _ => e.noted.closing isBenign⟩ := by
    intro s now
    refine (closing_obeys hlog s).mono fun o t h => ?_
    rwa [NotesOf, if_neg (by simp [hlength])]
  have hy := hx.issueClose (announceClose_discreet (e := e)) hmeets
  have hcall : x.close e.noted isBenign expiry =
      (x.issueClose e.noted.announceClose (e.noted.closing isBenign)).2.await
      errands.length expiry :=
    congrArg (Schedule.await _ · expiry) (hx.next.trans hlength)
  rw [hcall]
  generalize (x.issueClose e.noted.announceClose (e.noted.closing isBenign)).2 = y at hy ⊢
  -- whenever the caller is told, the schedule is orderly
  have hlater : ∀ {z : Schedule (Noted I) (Noting σ)}, Orderly (noting I) (fun s m => m.notes = s)
      (NotesOf isBenign errands.length) []
      (bodies ++ [⟨bodies.length, none, fun _ => e.noted.closing isBenign⟩]) z →
      ∀ r, (∀ told, some r = some told → told ≠ .error .timedOut →
        ∃ ending ∈ z.endings, ending.serial = errands.length ∧ told = ending.outcome.toResult) →
      ClosesLast isBenign errands.length (some r, z.erase) (some r, z) := by
    intro z hz r htold
    refine ⟨rfl, nofun, ?_, fun t hmem => ?_, fun told hr hnot => ?_⟩
    · obtain ⟨t₀, hends⟩ := hz.elapse_ends noting_governs
      refine ⟨t₀, fun t ht => ?_⟩
      exact ((hz.elapseTo noting_governs t).follows.stage hz.numbered hlength).close_mem
        (hends t ht errands.length (by simp [hlength]))
    · exact ((hz.elapseTo noting_governs t).follows.stage hz.numbered hlength).last hmem
    · obtain ⟨ending, hmem, hserial, rfl⟩ := htold told hr hnot
      exact (hz.follows.stage hz.numbered hlength).verdict hmem hserial
  obtain ⟨heq, hout⟩ | ⟨t, r, heq, hr⟩ | ⟨-, -, hnever⟩ := await_cases y errands.length expiry
  · rw [heq]
    refine hlater hy _ ?_
    rintro _ ⟨⟩ hnot
    exact absurd rfl hnot
  · rw [heq]
    refine hlater ((hy.advance noting_governs _).at_ t) r ?_
    rintro _ ⟨⟩ hnot
    obtain ⟨rfl, -⟩ | hending := hr
    · exact absurd rfl hnot
    · exact hending
  · have := hy.advance_ends noting_governs errands.length (by simp [hlength])
    rw [hnever] at this
    cases this

/-- A store whose steps take 10 ns each. -/
def slowStore : Memory.Store := { stepDelay := 10 }

/-- An operation whose caller leaves after 5 ns. -/
def slowApply : List Errand := [{ kind := .apply, desired := 3, expiry := some 5 }]

/-- A close behind a slow operation, whose caller leaves after 7 ns. -/
theorem close_last_behind_slowApply : (∀ line, (Memory.engine.log line).Unbroken) ∧
    ClosesLast (fun _ => false) slowApply.length
      (({ engine := slowStore, now := 0 } : Schedule Memory.interface Memory.Store).followClose
        Memory.engine (fun _ => false) slowApply none (some 7))
      (({ engine := ⟨slowStore, []⟩, now := 0 } :
          Schedule (Noted Memory.interface) (Noting Memory.Store)).followClose
        Memory.engine.noted (fun _ => false) slowApply none (some 7)) :=
  have hlog : ∀ line, (Memory.engine.log line).Unbroken := fun _ _ => trivial
  ⟨hlog, close_last hlog (fun _ => false) slowStore 0 slowApply none (some 7)⟩

end Schedule

end Stairway
