import Stairway.Memory.Engine
import Stairway.Postgres.Engine
import Stairway.Proofs.Controller.Attendance
import Stairway.Proofs.Controller.Erasure

/-!
# What an operation puts back

An operation may set the lock timeout of its engine to the time that it has left, and it puts the
engine's own back however it ends: with a result, with an error, or broken off inside a call. `Dial`
is what can be read of an engine's lock timeout, and `Engine.HasDial` says that setting it sets it;
nothing is asked of the calls that may fail or break off.

What is set is read off the notes. One operation adds one block to them (`HasDial.operation`),
bodies have the engine one after the other and each at its turn (`Attending`), so at every moment of
a run the settings are the blocks of the operations that have ended, in the order of their issue,
and then part of the block of the one that has the engine (`gate_and_timeout_restored`).
-/

namespace Stairway

/-! ## Seeing and noting -/

variable {I : Interface} {S σ α : Type}

/-- What somebody sees of a state of a machine. -/
abbrev Seen (view : σ → S) : Type := { s : S // ∃ m, view m = s }

/-- The requests of a machine as they look to somebody who sees no more than this. -/
def Protocol.seen [Machine I σ] (view : σ → S) : Protocol I (Seen view) where
  allows _ _ := True
  leads s r a t := ∃ now m, view m = s ∧ (Machine.answer r now m).1 = a ∧
    view (Machine.answer r now m).2 = t

theorem seen_governs [Machine I σ] {view : σ → S}
    (harrive : ∀ (r : I.Request) now (m : σ), view (Machine.arrive r now m).2 = view m) :
    (Protocol.seen view : Protocol I (Seen view)).Governs fun s m => view m = s where
  arrive := by
    intro s m r now hlink _
    exact (harrive r now m).trans hlink
  answer := by
    intro s m r now hlink _
    exact ⟨⟨_, _, rfl⟩, ⟨now, m, hlink, rfl, rfl⟩, rfl⟩

/-- A protocol beside which notes are taken. -/
def Protocol.noted (P : Protocol I S) : Protocol (Noted I) (List Note × S) where
  allows
    | s, .inl r => P.allows s.2 r
    | _, .inr _ => True
  leads
    | s, .inl r, a, t => t.1 = s.1 ∧ P.leads s.2 r a t.2
    | s, .inr n, _, t => t = (s.1 ++ [n], s.2)

theorem Protocol.Governs.noted [Machine I σ] {P : Protocol I S} {link : S → σ → Prop}
    (hP : P.Governs link) :
    P.noted.Governs fun s (m : Noting σ) => m.notes = s.1 ∧ link s.2 m.machine where
  arrive := by
    rintro s m (r | n) now ⟨hnotes, hlink⟩ hr
    · exact ⟨hnotes, hP.arrive r now hlink hr⟩
    · exact ⟨hnotes, hlink⟩
  answer := by
    rintro s m (r | n) now ⟨hnotes, hlink⟩ hr
    · obtain ⟨t, hleads, hlink'⟩ := hP.answer r now hlink hr
      exact ⟨(s.1, t), ⟨rfl, hleads⟩, hnotes, hlink'⟩
    · exact ⟨_, rfl, congrArg (· ++ [n]) hnotes, hlink⟩

variable {P : Protocol I S} {s t : List Note × S}

/-- What is noted beside a protocol is noted as before. -/
theorem Protocol.Reaches.notes (h : P.noted.Reaches s t) : (noting I).Reaches s.1 t.1 := by
  induction h with
  | refl s => exact .refl s.1
  | @step s t u r a _ ha _ ih =>
    cases r with
    | inl r => exact .step (r := .inl r) (a := a) trivial ha.1 ih
    | inr n => exact .step (r := .inr n) (a := a) trivial (congrArg Prod.fst ha) ih

theorem noted_extends (h : P.noted.Reaches s t) : s.1 <+: t.1 := noting_extends h.notes

/-- A program that takes no notes does beside them what it does. -/
theorem Program.Obeys.noted {Q : Outcome α → S → Prop} {p : Program I α} :
    ∀ {s : List Note × S}, p.Obeys P Q s.2 →
      p.noted.Obeys P.noted (fun o t => t.1 = s.1 ∧ Q o t.2) s := by
  induction p with
  | done a => exact fun h => ⟨rfl, h⟩
  | crash => exact fun h => ⟨rfl, h⟩
  | pause d next ih => exact ih
  | race d next ih => exact fun h cut => ih cut (h cut)
  | ask r next ih =>
    intro s h
    refine ⟨h.1, ?_⟩
    rintro a t ⟨hnotes, hleads⟩
    rw [← hnotes]
    exact ih a (h.2 a t.2 hleads)

/-- A call that is noted. -/
theorem notedCall_obeys {Q : Outcome α → S → Prop} {n : Note} {p : Program I α}
    (h : p.Obeys P Q s.2) :
    (Program.note n >>= fun _ => p.noted).Obeys P.noted
      (fun o t => t.1 = s.1 ++ [n] ∧ Q o t.2) s := by
  refine ⟨trivial, ?_⟩
  rintro _ _ rfl
  exact Program.Obeys.noted (s := (s.1 ++ [n], s.2)) h

/-! ## Dials -/

/-- How long an engine waits for its lock, and how long it does when nobody says otherwise. -/
structure Dial where
  timeout : Duration
  standard : Duration
  deriving DecidableEq, Repr

/-- The state of a machine shows the lock timeout of an engine: setting it sets it, and nothing
changes the engine's own. -/
structure Engine.HasDial [Machine I σ] (e : Engine I) (dial : σ → Dial) : Prop where
  arrive : ∀ (r : I.Request) now (m : σ), dial (Machine.arrive r now m).2 = dial m
  standard : ∀ (r : I.Request) now (m : σ), (dial (Machine.answer r now m).2).standard =
    (dial m).standard
  setLockTimeout : ∀ d s,
    (e.setLockTimeout d).Obeys (.seen dial)
    (fun o t => o = .finished () ∧ t.val = ⟨d, s.val.standard⟩) s
  defaultLockTimeout : ∀ s,
    e.defaultLockTimeout.Obeys (.seen dial) (fun o t => o = .finished s.val.standard ∧ t = s) s

/-- The lock timeout that a note says was set. -/
def Note.setting? : Note → Option Duration
  | setLockTimeout d => some d
  | _ => none

/-- The lock timeouts that were set, in order. -/
def settings (notes : List Note) : List Duration := notes.filterMap Note.setting?

theorem settings_snoc (notes : List Note) (n : Note) :
    settings (notes ++ [n]) = settings notes ++ n.setting?.toList := by
  simp only [settings, List.filterMap_append]
  cases h : n.setting? <;> simp [h]

/-- What an operation sets that has this much time: that time, if it has a deadline, and then the
engine's own lock timeout. -/
def block (standard : Duration) (remaining : Option Duration) : List Duration :=
  remaining.toList ++ [standard]

namespace Engine

/-- The engine without its lock timeout. -/
def withoutTimeout (e : Engine I) : Engine I :=
  { e with defaultLockTimeout := pure 0, setLockTimeout := fun _ => pure () }

/-- Between its beginning and its end an operation does not touch the lock timeout. -/
theorem perform_withoutTimeout (e : Engine I) (kind : Transition) (desired : Nat) :
    e.withoutTimeout.perform kind desired = e.perform kind desired := by
  cases kind <;> rfl

end Engine

section

variable {dial : σ → Dial}

/-- Nothing was set since, and the engine's own lock timeout is the same. -/
def Untouched (s t : List Note × Seen dial) : Prop :=
  settings t.1 = settings s.1 ∧ t.2.val.standard = s.2.val.standard

/-- One block was set since, and the engine's own lock timeout is back. -/
def TurnTaken (remaining : Option Duration) (s t : List Note × Seen dial) : Prop :=
  settings t.1 = settings s.1 ++ block s.2.val.standard remaining ∧
    t.2.val = ⟨s.2.val.standard, s.2.val.standard⟩

namespace Engine.HasDial

variable [Machine I σ] {e : Engine I} {s : List Note × Seen dial}

theorem governs (h : e.HasDial dial) :
    (Protocol.seen dial : Protocol I (Seen dial)).Governs fun s m => dial m = s :=
  seen_governs h.arrive

/-- No program changes the engine's own lock timeout. -/
theorem keeps (h : e.HasDial dial) (p : Program I α) :
    ∀ s : Seen dial, p.Obeys (.seen dial) (fun _ t => t.val.standard = s.val.standard) s := by
  induction p with
  | done a => exact fun s => rfl
  | crash => exact fun s => rfl
  | pause d next ih => exact ih
  | race d next ih => exact fun s cut => ih cut s
  | ask r next ih =>
    intro s
    refine ⟨trivial, ?_⟩
    rintro a t ⟨now, m, hs, -, ht⟩
    rw [← hs, ← h.standard r now m, ht]
    exact ih a t

/-- A call that sets nothing. -/
theorem call_obeys (h : e.HasDial dial) {n : Note} (hn : n.setting? = none) (p : Program I α)
    {t : List Note × Seen dial} (ht : Untouched s t) :
    (Program.note n >>= fun _ => p.noted).Obeys (Protocol.seen dial).noted
      (fun _ u => Untouched s u) t := by
  refine (notedCall_obeys (h.keeps p t.2)).mono ?_
  rintro _ u ⟨hnotes, hstandard⟩
  refine ⟨?_, hstandard.trans ht.2⟩
  rw [hnotes, settings_snoc, hn]
  simpa using ht.1

/-- What an operation does to the schema leaves the lock timeout as it is, however it ends. -/
theorem perform (h : e.HasDial dial) (kind : Transition) (desired : Nat) :
    (e.noted.perform kind desired).run.Obeys (Protocol.seen dial).noted
      (fun _ t => Untouched s t) s := by
  have hphases : Engine.Phases (Protocol.seen dial).noted e.noted.withoutTimeout kind desired
      (Untouched s) (fun _ => Untouched s) (fun _ => Untouched s) (Untouched s) := by
    refine .of_keeps ?_ ?_ ?_ ?_ ?_ ?_
    · intro line t ht
      refine (Program.Obeys.noted (h.keeps (e.log line) t.2)).mono ?_
      rintro _ u ⟨hnotes, hstandard⟩
      exact ⟨(congrArg settings hnotes).trans ht.1, hstandard.trans ht.2⟩
    · exact fun t ht => h.call_obeys rfl e.version ht
    · exact fun v t ht => h.call_obeys rfl (e.force v) ht
    · exact fun v t ht => h.call_obeys rfl (e.migrateTo v) ht
    · exact fun d t ht => ht
    · exact fun t ht => ht
  rw [← e.noted.perform_withoutTimeout]
  exact Program.obeys_onSuccess.1 (hphases.perform ⟨rfl, rfl⟩)

theorem set_obeys (h : e.HasDial dial) (d : Duration) :
    (e.noted.setLockTimeout d).Obeys (Protocol.seen dial).noted
      (fun o t => o = .finished () ∧ t.1 = s.1 ++ [.setLockTimeout d] ∧
        t.2.val = ⟨d, s.2.val.standard⟩) s := by
  refine (notedCall_obeys (h.setLockTimeout d s.2)).mono ?_
  rintro o t ⟨hnotes, ho, hdial⟩
  exact ⟨ho, hnotes, hdial⟩

/-- The cleanup of an operation does not break off. -/
theorem restore (h : e.HasDial dial) :
    e.noted.restoreLockTimeout.Obeys (Protocol.seen dial).noted
      (fun o t => o = .finished () ∧ TurnTaken none s t) s := by
  refine Program.obeys_bind.2 ((notedCall_obeys (h.defaultLockTimeout s.2)).mono ?_)
  rintro _ t ⟨hnotes, rfl, hdial⟩
  refine (h.set_obeys s.2.val.standard).mono ?_
  rintro o u ⟨ho, hset, hback⟩
  refine ⟨ho, ?_, ?_⟩
  · rw [hset, settings_snoc, hnotes, settings_snoc]
    simp [block, Note.setting?]
  · rw [hback, hdial]

/-- **An operation sets one block**, whatever becomes of it. -/
theorem operation (h : e.HasDial dial) (kind : Transition) (desired : Nat)
    (remaining : Option Duration) :
    (e.noted.operation kind desired remaining).Obeys (Protocol.seen dial).noted
      (fun _ t => TurnTaken remaining s t) s := by
  have hbody : ∀ t : List Note × Seen dial,
      (Program.ensuring (e.noted.perform kind desired).run e.noted.restoreLockTimeout).Obeys
        (Protocol.seen dial).noted (fun _ u => TurnTaken none t u) t := by
    intro t
    -- it makes no difference whether this part has a result or breaks off: the cleanup runs to its
    -- end
    refine Program.obeys_ensuring.2 ((h.perform kind desired).mono ?_)
    rintro _ u ⟨hsettings, hstandard⟩
    refine h.restore.mono ?_
    rintro _ v ⟨rfl, hv⟩
    rwa [TurnTaken, hsettings, hstandard] at hv
  cases remaining with
  | none => exact hbody s
  | some d =>
    refine (Program.obeys_bind (p := e.noted.setLockTimeout d)).2 ((h.set_obeys d).mono ?_)
    rintro _ t ⟨rfl, hset, hdial⟩
    refine (hbody t).mono ?_
    rintro _ u ⟨hsettings, hback⟩
    rw [hdial] at hsettings hback
    refine ⟨?_, hback⟩
    rw [hsettings, hset, settings_snoc]
    simp [block, Note.setting?]

end Engine.HasDial

end

/-! ## The dials of the two engines -/

def Memory.dial (store : Memory.Store) : Dial :=
  ⟨store.lockTimeout, store.faults.defaultLockTimeout.getD Stairway.defaultLockTimeout⟩

theorem Memory.engine_hasDial : Memory.engine.HasDial Memory.dial where
  arrive _ _ _ := rfl
  standard r now m := by
    cases r with
    | startMigration target =>
      simp only [Machine.answer, Store.serve]
      repeat' split
      all_goals rfl
    | version =>
      simp only [Machine.answer, Store.serve]
      split <;> rfl
    | _ => rfl
  setLockTimeout d s := by
    refine ⟨trivial, ?_⟩
    rintro a t ⟨now, m, hs, -, ht⟩
    exact ⟨rfl, by rw [← ht, ← hs]; rfl⟩
  defaultLockTimeout s := by
    refine ⟨trivial, ?_⟩
    rintro a t ⟨now, m, hs, rfl, ht⟩
    refine ⟨by rw [← hs]; rfl, Subtype.ext ?_⟩
    rw [← ht, ← hs]
    rfl

def Postgres.dial (site : Postgres.Site) : Dial :=
  ⟨site.session.lockTimeout, Stairway.defaultLockTimeout⟩

theorem Postgres.engine_hasDial (p : Postgres.Plant) : p.engine.HasDial Postgres.dial where
  arrive r now m := by
    cases r <;> rfl
  standard _ _ _ := rfl
  setLockTimeout d s := by
    refine ⟨trivial, ?_⟩
    rintro a t ⟨now, m, hs, -, ht⟩
    exact ⟨rfl, by rw [← ht, ← hs]; rfl⟩
  defaultLockTimeout s := by
    obtain ⟨_, m, rfl⟩ := s
    exact ⟨rfl, rfl⟩

/-! ## Turns -/

namespace Schedule

/-- The time that was left to each operation whose turn has come: the first finds the engine free,
each of the others when the one before has ended. -/
def allowances (tickets : List Ticket) (endings : List Ending) : List (Option Duration) :=
  List.zipWith Ticket.remaining tickets (0 :: endings.map (·.time))

/-- The last of the instants at which the engine became free. -/
theorem freeTimes_eq (endings : List Ending) :
    ∃ front, 0 :: endings.map (·.time) = front ++ [freeSince endings] ∧
      front.length = endings.length := by
  rcases List.eq_nil_or_concat endings with rfl | ⟨before, e, rfl⟩
  · exact ⟨[], rfl, rfl⟩
  · refine ⟨0 :: before.map (·.time), ?_, by simp⟩
    rw [List.concat_eq_append, freeSince_snoc]
    simp

variable {tickets : List Ticket} {endings : List Ending}

/-- Of those that have not ended only the first has had its turn. -/
theorem allowances_append (h : endings.length = tickets.length) (more : List Ticket) :
    allowances (tickets ++ more) endings =
      allowances tickets endings ++ (more.head?.map (·.remaining (freeSince endings))).toList := by
  obtain ⟨front, hfree, hfront⟩ := freeTimes_eq endings
  have hsplit : ∀ others : List Ticket,
      List.zipWith Ticket.remaining (tickets ++ others) (front ++ [freeSince endings]) =
        List.zipWith Ticket.remaining tickets front ++
          List.zipWith Ticket.remaining others [freeSince endings] :=
    fun others => List.zipWith_append (h.symm.trans hfront.symm)
  have hdone := hsplit []
  rw [List.append_nil] at hdone
  unfold allowances
  rw [hfree, hsplit more, hdone]
  cases more with
  | nil => simp
  | cons c others => simp

/-- The end of a body whose turn is over decides nothing about it. -/
theorem allowances_snoc (h : endings.length = tickets.length) (c : Ticket) (e : Ending) :
    allowances (tickets ++ [c]) (endings ++ [e]) =
      allowances tickets endings ++ [c.remaining (freeSince endings)] := by
  have hlate : List.zipWith Ticket.remaining ((tickets ++ [c]) ++ [])
      ((0 :: endings.map (·.time)) ++ [e.time]) =
        allowances (tickets ++ [c]) endings ++ List.zipWith Ticket.remaining [] [e.time] :=
    List.zipWith_append (by simp [h])
  have hnext := allowances_append h [c]
  rw [hnext] at hlate
  simpa [allowances] using hlate

theorem length_allowances (h : endings.length = tickets.length) :
    (allowances tickets endings).length = endings.length := by
  simp [allowances, ← h]

/-- What the body of an operation sets and puts back when its turn comes at `start`. -/
def TakesTurn {dial : σ → Dial} (b : Body (Noted I)) (start : Instant) (s : List Note × Seen dial)
    (_ : Outcome (Except Failure Unit)) (t : List Note × Seen dial) : Prop :=
  TurnTaken (b.deadline.map (· - start)) s t

variable {issued : List (Issue (Noted I))} {dial : σ → Dial} {d : Seen dial}
  {s : List Note × Seen dial}

/-- The blocks of the operations that have ended, one after the other. -/
theorem Attended.turns (h : Attended TakesTurn ([], d) issued endings s) :
    settings s.1 = (allowances (issued.map (·.ticket)) endings).flatMap (block d.val.standard) ∧
      s.2.val.standard = d.val.standard ∧
      (issued ≠ [] → s.2.val = ⟨d.val.standard, d.val.standard⟩) := by
  induction h with
  | none => exact ⟨rfl, rfl, fun hne => absurd rfl hne⟩
  | @next issues endings s t c e before serial effect ih =>
    obtain ⟨hsettings, hstandard, -⟩ := ih
    obtain ⟨hblock, hdial⟩ := effect
    rw [hstandard] at hblock hdial
    refine ⟨?_, by rw [hdial], fun _ => hdial⟩
    rw [hblock, hsettings, List.map_append, List.map_singleton,
      allowances_snoc (by simpa using before.length), List.flatMap_append, List.flatMap_singleton]
    rfl

/-! ## The gate and the lock timeout of a controller -/

/-- What is true of a controller at a moment of a run in which the operations with these tickets
have been issued. The calls of the engine are read off the notes of `call`, which is `run`
otherwise. -/
structure Restored (dial : σ → Dial) (standard : Duration) (tickets : List Ticket)
    (run : Schedule I σ) (call : Schedule (Noted I) (Noting σ)) : Prop where
  /-- Taking notes changes nothing. -/
  same : run = call.erase
  /-- The controller is idle exactly when all of them have ended. -/
  idle : run.isIdle = true ↔ ∀ k < tickets.length, run.hasEnded k = true
  /-- When it is, the engine's own lock timeout is back. -/
  timeout : tickets ≠ [] → run.isIdle = true → dial run.engine = ⟨standard, standard⟩
  /-- They end in the order of their issue. -/
  order : run.endings.map (·.serial) = List.range run.endings.length
  /-- While nobody has the engine, each of those that have ended has set its block and nothing else
  was set. -/
  free : run.holder = none → settings call.engine.notes =
    ((allowances tickets run.endings).take run.endings.length).flatMap (block standard)
  /-- At any moment the one whose turn it is may have set part of its own. -/
  held : ∃ part, settings call.engine.notes =
      ((allowances tickets run.endings).take run.endings.length).flatMap (block standard) ++ part ∧
    part <+: ((allowances tickets run.endings).drop run.endings.length).flatMap (block standard)

/-- Once all of them have ended, each has set its block and nothing else was set. -/
theorem Restored.settings_of_idle {standard : Duration} {run : Schedule I σ}
    {call : Schedule (Noted I) (Noting σ)} (h : Restored dial standard tickets run call)
    (hidle : run.isIdle = true) :
    settings call.engine.notes = (allowances tickets run.endings).flatMap (block standard) := by
  have hall : tickets.length ≤ run.endings.length := by
    by_cases hlt : run.endings.length < tickets.length
    · have hended := h.idle.1 hidle run.endings.length hlt
      rw [hasEnded_iff, h.order, List.mem_range] at hended
      omega
    · omega
  have hturns : (allowances tickets run.endings).length ≤ run.endings.length := by
    rw [allowances, List.length_zipWith]
    exact Nat.le_trans (Nat.min_le_left _ _) hall
  obtain ⟨part, hsettings, hpart⟩ := h.held
  rw [List.drop_of_length_le hturns, List.flatMap_nil, List.prefix_nil] at hpart
  rw [hsettings, hpart, List.append_nil, List.take_of_length_le hturns]

variable [Machine I σ] {e : Engine I} {y : Schedule (Noted I) (Noting σ)}

theorem tickets_erase (e : Engine I) (errands : List Errand) : ∀ y : Schedule (Noted I) (Noting σ),
    y.erase.tickets e errands = y.tickets e.noted errands := by
  induction errands with
  | nil => exact fun y => rfl
  | cons errand errands ih =>
    intro y
    simp only [tickets]
    rw [rest_erase, perform_erase, ih]
    rfl

theorem upTo_erase (e : Engine I) (w : Moment) (y : Schedule (Noted I) (Noting σ)) :
    y.erase.upTo e w = (y.upTo e.noted w).erase := by
  unfold upTo
  rw [follow_erase]
  rcases w.underWay with _ | errand
  · exact rest_erase w.since _
  · have hissue := issue_erase e ((y.follow e.noted w.returned).2.rest errand.pause) errand.kind
      errand.desired errand.deadline
    simp only [begin, Errand.program]
    rw [rest_erase, hissue, rest_erase]

/-- A controller that has attended to its operations stands as it should. -/
theorem Attending.restored (hdial : e.HasDial dial)
    {m : σ} (h : Attending (Protocol.seen dial).noted
      (fun s (m : Noting σ) => m.notes = s.1 ∧ dial m.machine = s.2) TakesTurn
      ([], ⟨dial m, m, rfl⟩) issued y) :
    Restored dial (dial m).standard (issued.map (·.ticket)) y.erase y := by
  have hdone : ∀ {ended : List (Issue (Noted I))} {s : List Note × Seen dial}
      (rest : List (Issue (Noted I))),
      Attended TakesTurn ([], ⟨dial m, m, rfl⟩) ended y.endings s →
      (allowances ((ended ++ rest).map (·.ticket)) y.endings).take y.endings.length =
          allowances (ended.map (·.ticket)) y.endings ∧
        (allowances ((ended ++ rest).map (·.ticket)) y.endings).drop y.endings.length =
          ((rest.map (·.ticket)).head?.map (·.remaining (freeSince y.endings))).toList := by
    intro ended s rest hended
    have hlength : y.endings.length = (ended.map (·.ticket)).length := by simpa using hended.length
    rw [List.map_append, allowances_append hlength]
    have hfront := length_allowances hlength
    exact ⟨List.take_left' hfront, List.drop_left' hfront⟩
  refine ⟨rfl, ?_, ?_, h.attends.serials h.numbered, ?_, ?_⟩
  · rw [List.length_map]
    exact h.isIdle_iff
  · intro hne hidle
    obtain ⟨s, hall, -, hlink⟩ := h.attends.concluded h.numbered (h.isIdle_iff.1 hidle)
    exact hlink.trans (hall.turns.2.2 fun hnil => hne (by simp [hnil]))
  · intro hfree
    have hattends := h.attends
    generalize y.now = now at hattends
    cases hattends with
    | free holder line attended linked past due =>
      rw [linked.1, attended.turns.1]
      exact congrArg _ (hdone _ attended).1.symm
    | held holder line attended reached obeys linked past =>
      simp [erase, holder] at hfree
  · have hattends := h.attends
    generalize y.now = now at hattends
    cases hattends with
    | free holder line attended linked past due =>
      refine ⟨[], ?_, List.nil_prefix⟩
      rw [linked.1, attended.turns.1, List.append_nil]
      exact congrArg _ (hdone _ attended).1.symm
    | @held _ ended waiting c s t _ a holder line attended reached obeys linked past =>
      obtain ⟨o, u, hends, hturn, -⟩ := hdial.governs.noted.conclude obeys linked
      have hbegun : settings s.1 <+: settings t.1 := (noted_extends reached).filterMap Note.setting?
      have hwithin : settings t.1 <+: settings u.1 := (noted_extends hends).filterMap Note.setting?
      obtain ⟨part, hpart⟩ := hbegun
      obtain ⟨hsettings, hstandard, -⟩ := attended.turns
      obtain ⟨htake, hdrop⟩ := hdone (c :: waiting) attended
      have hendings : y.erase.endings = y.endings := rfl
      rw [hendings, htake, hdrop, ← hsettings, linked.1]
      refine ⟨part, hpart.symm, ?_⟩
      rw [hturn, hstandard, ← hpart, List.prefix_append_right_inj] at hwithin
      simpa [Issue.ticket, Ticket.remaining, Issue.start] using hwithin

/-- **Gate and lock timeout are restored**: at every moment of every run the controller is idle
exactly when all operations issued so far have ended, the engine's own lock timeout is back then,
and each operation has set the time that was left to it when it got the engine, if it had a
deadline, and then put the engine's own back. -/
theorem gate_and_timeout_restored (h : e.HasDial dial) (m : σ) (now : Instant) (w : Moment) :
    Restored dial (dial m).standard
      (({ engine := m, now := now } : Schedule I σ).tickets e w.errands)
      (({ engine := m, now := now } : Schedule I σ).upTo e w)
      (({ engine := ⟨m, []⟩, now := now } : Schedule (Noted I) (Noting σ)).upTo e.noted w) := by
  have hstart : Attending (Protocol.seen dial).noted
      (fun s (m : Noting σ) => m.notes = s.1 ∧ dial m.machine = s.2) TakesTurn
      ([], ⟨dial m, m, rfl⟩) []
      ({ engine := ⟨m, []⟩, now := now } : Schedule (Noted I) (Noting σ)) := .start _ now ⟨rfl, rfl⟩
  have hpunctual : ∀ (errand : Errand) n,
      Punctual (Protocol.seen dial).noted TakesTurn (errand.body e.noted n) := by
    intro errand n s start
    exact h.operation errand.kind errand.desired _
  obtain ⟨issued, htickets, hissued⟩ := hstart.upTo h.governs.noted hpunctual w
  rw [show ({ engine := m, now := now } : Schedule I σ) =
    ({ engine := ⟨m, []⟩, now := now } : Schedule (Noted I) (Noting σ)).erase from rfl,
    tickets_erase, upTo_erase, ← htickets]
  exact hissued.restored h

/-- A migration whose caller leaves after 5 ns, and a rollback issued behind it, looked at after 30
ns. -/
def leftBehind : Moment where
  returned := [{ kind := .apply, desired := 3, deadline := some 5, expiry := some 5 }]
  underWay := some { kind := .rollback, desired := 1, deadline := some 42 }
  since := some 30

/-- The rollback has the engine from 30 ns on, when its deadline is 12 ns away. -/
theorem gate_and_timeout_restored_leftBehind : Memory.engine.HasDial Memory.dial ∧
    Restored Memory.dial (Memory.dial { stepDelay := 10 }).standard
      (({ engine := { stepDelay := 10 }, now := 0 } :
        Schedule Memory.interface Memory.Store).tickets
        Memory.engine leftBehind.errands)
      (({ engine := { stepDelay := 10 }, now := 0 } : Schedule Memory.interface Memory.Store).upTo
        Memory.engine leftBehind)
      (({ engine := ⟨{ stepDelay := 10 }, []⟩, now := 0 } :
          Schedule (Noted Memory.interface) (Noting Memory.Store)).upTo
            Memory.engine.noted leftBehind) ∧
    settings (({ engine := ⟨{ stepDelay := 10 }, []⟩, now := 0 } :
        Schedule (Noted Memory.interface) (Noting Memory.Store)).upTo Memory.engine.noted
          leftBehind).engine.notes = [5, Duration.ofSeconds 15, 12] :=
  ⟨Memory.engine_hasDial,
    gate_and_timeout_restored Memory.engine_hasDial
      { stepDelay := 10 } 0 leftBehind, by decide +kernel⟩

end Schedule

end Stairway
