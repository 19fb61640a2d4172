import Mathlib.Data.List.Forall2
import Stairway.Proofs.Controller.Errands
import Stairway.Proofs.Memory.Evaluation

/-!
# Detached operations are serial

Operations on an engine in memory are issued one after the other, and some callers stop waiting
before their body has ended: it goes on, or has not even begun, while the next is issued. All the
same the store ends up as if every caller had waited (`follow_serialises`). A body's effect is its
evaluation on the store that the body before it has left, whatever time its context leaves it
(`Effect.eq`), and bodies have the store in the order of their issue (`Ready.follow`); so the two
runs, with deadlines and without, are compared with a third one that has no time at all, `settle`.

The calls that an operation makes form a block (`IsBlock`): a reading of the version, a repair of a
dirty one, a migration. A planned fault takes the place of its call.
-/

namespace Stairway.Memory

open Program (onSuccess ending)

/-! ## The engine in memory -/

/-- The version one step from `current` on the way to `target`. -/
def toward (target current : Nat) : Nat := if current < target then current + 1 else current - 1

/-- A step that nobody stops: the version becomes dirty, time passes, and the version is clean. -/
def step (delay : Duration) (next : Nat) : Program interface Unit := do
  ask (.beginStep next)
  if delay ≠ 0 then Program.sleep delay
  ask (.endStep next)

theorem stepsUpTo_eq {delay : Duration} {target current : Nat} (h : current ≠ target) :
    stepsUpTo delay target current = (do
      if ← ask .takeStop then pure (.error .stopped)
      else
        step delay (toward target current)
        stepsUpTo delay target (toward target current)) := by
  rw [stepsUpTo, dif_neg h]
  unfold step toward
  by_cases hd : delay = 0
  · simp only [hd, ne_eq, not_true_eq_false, if_false]
    rfl
  · simp only [hd, ne_eq, not_false_eq_true, if_true]
    rfl

theorem step_steady (delay : Duration) (next : Nat) : (step delay next).Steady := by
  refine Program.Steady.bind (p := ask (.beginStep next)) (fun _ => trivial) fun _ => ?_
  split
  · exact fun _ => trivial
  · exact fun _ => trivial

theorem stepsUpTo_steady (delay : Duration) (target current : Nat) :
    (stepsUpTo delay target current).Steady := by
  induction current using stepsUpTo.induct target with
  | case1 => rw [stepsUpTo, dif_pos rfl]; trivial
  | case2 current h ih =>
    rw [stepsUpTo_eq h]
    intro stop
    cases stop with
    | true => trivial
    | false => exact (step_steady delay _).bind fun _ => ih

theorem guarded_steady {α : Type} {point : Point} {p : Program interface (Except EngineError α)}
    (hp : p.Steady) : (guarded point p).Steady := by
  rintro (_ | _ | _)
  · exact hp
  · trivial
  · trivial

theorem engine_steady : engine.Steady where
  version := guarded_steady fun _ => trivial
  migrateTo target := guarded_steady <| by
    rintro (e | ⟨delay, current⟩)
    · trivial
    · exact stepsUpTo_steady delay target current
  force v := guarded_steady fun _ => trivial
  defaultLockTimeout _ := trivial
  setLockTimeout _ _ := trivial
  log _ _ := trivial

/-! ## Blocks of calls -/

/-- The calls that an operation makes: it reads the version, then repairs it if it is a rollback,
then migrates if it is no assertion. -/
def IsBlock (faults : Faults) (errand : Errand) (block : List Call) : Prop :=
  ∃ repairs moves,
    block = (if (faults.at .version).isNone then [.version] else []) ++ repairs ++ moves ∧
    (repairs = [] ∨ errand.kind = .rollback ∧ ∃ v, repairs = [.force v]) ∧
    (moves = [] ∨ errand.kind ≠ .assert ∧ moves = [.migrateTo errand.desired])

namespace IsBlock

variable {faults : Faults} {errand : Errand}

theorem read (hf : faults.at .version = none) : IsBlock faults errand [.version] :=
  ⟨[], [], by simp [hf], .inl rfl, .inl rfl⟩

theorem repaired (hf : faults.at .version = none) (hkind : errand.kind = .rollback) (v : Int) :
    IsBlock faults errand [.version, .force v] :=
  ⟨[.force v], [], by simp [hf], .inr ⟨hkind, v, rfl⟩, .inl rfl⟩

theorem moved (hf : faults.at .version = none) (hkind : errand.kind ≠ .assert) :
    IsBlock faults errand [.version, .migrateTo errand.desired] :=
  ⟨[], _, by simp [hf], .inl rfl, .inr ⟨hkind, rfl⟩⟩

theorem repairedMoved (hf : faults.at .version = none) (hkind : errand.kind = .rollback) (v : Int) :
    IsBlock faults errand [.version, .force v, .migrateTo errand.desired] :=
  ⟨[.force v], _, by simp [hf], .inr ⟨hkind, v, rfl⟩, .inr ⟨by simp [hkind], rfl⟩⟩

end IsBlock

/-- A store that has been called as `block` says, and plans the same faults. -/
def Store.Called (s : Store) (block : List Call) (t : Store) : Prop :=
  t.calls = s.calls ++ block ∧ t.faults = s.faults

theorem Store.Called.refl (s : Store) : s.Called [] s := ⟨(List.append_nil _).symm, rfl⟩

theorem Store.Called.trans {s t u : Store} {block more : List Call} (h : s.Called block t)
    (h' : t.Called more u) : s.Called (block ++ more) u :=
  ⟨by rw [h'.1, h.1, List.append_assoc], h'.2.trans h.2⟩

theorem obeys_ask {α : Type} {r : Request} {f : r.Answer → Program interface α}
    {Q : Outcome α → Store → Prop} {s : Store}
    (h : (f (s.serve r).1).Obeys keeping Q (s.serve r).2) : (ask r >>= f).Obeys keeping Q s := by
  refine ⟨trivial, ?_⟩
  rintro _ _ ⟨rfl, rfl⟩
  exact h

theorem obeys_guarded {α : Type} {point : Point} {p : Program interface (Except EngineError α)}
    {ok : α → Store → Prop} {ended : Store → Prop} {s : Store}
    (hfault : s.faults.at point ≠ none → ended s)
    (hp : s.faults.at point = none → p.Obeys keeping (onSuccess ok ended) s) :
    (guarded point p).Obeys keeping (onSuccess ok ended) s := by
  refine obeys_ask ?_
  simp only [Store.serve]
  rcases hf : s.faults.at point with _ | _ | _
  · exact hp hf
  · exact hfault (by simp [hf])
  · exact hfault (by simp [hf])

theorem obeys_step (delay : Duration) (next : Nat) (s : Store) :
    (step delay next).Obeys keeping (fun _ t => s.Called [] t) s := by
  refine obeys_ask ?_
  split
  · exact obeys_ask (f := Program.done) (Store.Called.refl s)
  · exact obeys_ask (f := Program.done) (Store.Called.refl s)

theorem obeys_stepsUpTo (delay : Duration) (target current : Nat) : ∀ s : Store,
    (stepsUpTo delay target current).Obeys keeping (fun _ t => s.Called [] t) s := by
  induction current using stepsUpTo.induct target with
  | case1 => rw [stepsUpTo, dif_pos rfl]; exact Store.Called.refl
  | case2 current h ih =>
    rw [stepsUpTo_eq h]
    refine fun s => obeys_ask ?_
    split
    · exact Store.Called.refl s
    · refine Program.obeys_bind.2 ((obeys_step delay _ _).mono ?_)
      rintro (_ | _) t ht
      · exact (ih t).mono fun _ u hu => Store.Called.trans (s := s) ht hu
      · exact ht

theorem obeys_migrateTo (target : Nat) (s : Store) : (engine.migrateTo target).Obeys keeping
    (fun _ t => s.Called [] t ∨ s.Called [.migrateTo target] t) s := by
  have hcalled : s.Called [.migrateTo target] (s.serve (.startMigration target)).2 := by
    cases hm : s.migrateError with
    | some text => simp [Store.Called, Store.serve, Store.record, hm]
    | none =>
      by_cases hlt : s.available < target <;>
        simp [Store.Called, Store.serve, Store.record, hm, hlt]
  have hmoved : (migrateTo target).Obeys keeping (fun _ t => s.Called [.migrateTo target] t) s := by
    refine obeys_ask ?_
    split
    · exact hcalled
    · exact (obeys_stepsUpTo _ target _ _).mono fun _ u hu => hcalled.trans hu
  have hguarded : (guarded .migrateTo (migrateTo target)).Obeys keeping
      (onSuccess (fun _ t => s.Called [.migrateTo target] t)
        fun t => s.Called [] t ∨ s.Called [.migrateTo target] t) s := by
    refine obeys_guarded (fun _ => .inl (.refl s)) fun _ => hmoved.mono ?_
    rintro ((_ | _) | _) t ht
    · exact .inr ht
    · exact ht
    · exact .inr ht
  refine hguarded.mono ?_
  rintro ((_ | _) | _) t ht
  · exact ht
  · exact .inr ht
  · exact ht

theorem obeys_force (v : Int) (s : Store) : (engine.force v).Obeys keeping
    (onSuccess (fun _ t => s.Called [.force v] t) (s.Called [])) s :=
  obeys_guarded (fun _ => .refl s) fun _ => obeys_ask ⟨rfl, rfl⟩

theorem obeys_version (s : Store) : engine.version.Obeys keeping
    (onSuccess (fun _ t => s.faults.at .version = none ∧ s.Called [.version] t)
      fun t => s.Called (if (s.faults.at .version).isNone then [.version] else []) t) s := by
  refine obeys_guarded (fun hf => ?_) fun hf => obeys_ask (f := Program.done) ?_
  · rw [if_neg (by simpa using hf)]
    exact .refl s
  · cases hc : s.closed <;>
      simp [Program.Obeys, ending, Store.Called, Store.serve, Store.record, hc, hf]

/-- What is known of the calls of an operation, from phase to phase. -/
theorem phases (s : Store) (errand : Errand) :
    Engine.Phases keeping engine errand.kind errand.desired (s.Called [])
      (fun _ t => s.faults.at .version = none ∧ s.Called [.version] t)
      (fun c t => s.faults.at .version = none ∧ errand.kind = .rollback ∧
        s.Called [.version, .force c.version] t)
      (fun t => ∃ block, IsBlock s.faults errand block ∧ s.Called block t) where
  read_ended c t ht := ⟨_, .read ht.1, ht.2⟩
  repaired_ended c t ht := ⟨_, .repaired ht.1 ht.2.1 _, ht.2.2⟩
  log_read line c t ht := obeys_ask (f := Program.done) ht
  log_repaired line c t ht := obeys_ask (f := Program.done) ht
  log_ended line t ht := obeys_ask (f := Program.done) ht
  version t ht := by
    have hf : t.faults = s.faults := ht.2
    have hblock : IsBlock s.faults errand
        (if (s.faults.at .version).isNone then [.version] else []) :=
      ⟨[], [], by simp, .inl rfl, .inl rfl⟩
    refine (obeys_version t).mono ?_
    rw [hf]
    rintro ((_ | v) | _) u hu
    · exact ⟨_, hblock, ht.trans hu⟩
    · exact ⟨hu.1, ht.trans hu.2⟩
    · exact ⟨_, hblock, ht.trans hu⟩
  force hkind c t ht _ _ := by
    refine (obeys_force c.version t).mono ?_
    rintro ((_ | v) | _) u hu
    · exact ⟨_, .read ht.1, ht.2.trans hu⟩
    · exact ⟨ht.1, hkind, ht.2.trans hu⟩
    · exact ⟨_, .read ht.1, ht.2.trans hu⟩
  migrateUp hkind c t ht _ _ := by
    refine (obeys_migrateTo errand.desired t).mono ?_
    rintro _ u (hu | hu)
    · exact ⟨_, .read ht.1, ht.2.trans hu⟩
    · exact ⟨_, .moved ht.1 (by simp [hkind]), ht.2.trans hu⟩
  migrateDown hkind c t ht _ := by
    refine (obeys_migrateTo errand.desired t).mono ?_
    split at ht
    · rintro _ u (hu | hu)
      · exact ⟨_, .repaired ht.1 hkind _, ht.2.2.trans hu⟩
      · exact ⟨_, .repairedMoved ht.1 hkind _, ht.2.2.trans hu⟩
    · rintro _ u (hu | hu)
      · exact ⟨_, .read ht.1, ht.2.trans hu⟩
      · exact ⟨_, .moved ht.1 (by simp [hkind]), ht.2.trans hu⟩
  setLockTimeout d t ht := obeys_ask (f := Program.done) ht
  restore t ht := obeys_ask (obeys_ask (f := Program.done) ht)

/-! ## Effects -/

/-- What an operation comes to on a store, without any deadline. -/
def effect (errand : Errand) (s : Store) : Outcome (Except Failure Unit) × Store :=
  evaluate (errand.program engine none) s

/-- The calls of an operation are one block. -/
theorem effect_block (errand : Errand) (s : Store) :
    ∃ block, IsBlock s.faults errand block ∧ s.Called block (effect errand s).2 :=
  obeys_evaluate ((phases s errand).operation none (Store.Called.refl s))

/-- A body comes to what its program evaluates to, for some time that its context leaves it. -/
def Effect (b : Body interface) (s : Store) (o : Outcome (Except Failure Unit))
    (t : Store) : Prop :=
  ∃ remaining, (o, t) = evaluate (b.program remaining) s

theorem meets_effect (errand : Errand) (n : Nat) :
    Schedule.Meets keeping Effect (errand.body engine n) := by
  intro s now
  refine (steady_obeys (engine_steady.operation _ _ _) s).mono ?_
  intro o t ht
  exact ⟨_, ht⟩

/-- **A deadline changes nothing but the lock timeout**, so a body comes to the effect of its
errand. -/
theorem Effect.eq {b : Body interface} {errand : Errand} {s t u : Store}
    {o : Outcome (Except Failure Unit)} (h : Effect b s o t)
    (hb : b.program = errand.program engine) (hs : s.untimed = u.untimed) :
    o = (effect errand u).1 ∧ t.untimed = (effect errand u).2.untimed := by
  obtain ⟨remaining, h⟩ := h
  rw [hb] at h
  obtain ⟨rfl, rfl⟩ := Prod.mk.inj h
  cases remaining with
  | none => exact evaluate_alike hs
  | some d => exact evaluate_alike (s := (s.serve (.setLockTimeout d)).2) hs

/-! ## Without time -/

/-- The store after operations that have it one after the other. -/
def settle (s : Store) (errands : List Errand) : Store :=
  errands.foldl (fun s errand => (effect errand s).2) s

/-- What the callers are told who wait for them. -/
def answers (s : Store) : List Errand → List (Except Failure Unit)
  | [] => []
  | errand :: errands => (effect errand s).1.toResult :: answers (effect errand s).2 errands

theorem settle_snoc (s : Store) (errands : List Errand) (errand : Errand) :
    settle s (errands ++ [errand]) = (effect errand (settle s errands)).2 :=
  List.foldl_concat ..

theorem answers_inBackground (errands : List Errand) : ∀ s : Store,
    answers s (errands.map (·.inBackground)) = answers s errands := by
  induction errands with
  | nil => exact fun s => rfl
  | cons errand errands ih => exact fun s => congrArg (_ :: ·) (ih _)

/-- The calls of operations are one block each, in their order. -/
theorem settle_blocks (errands : List Errand) : ∀ s : Store,
    ∃ blocks, List.Forall₂ (IsBlock s.faults) errands blocks ∧
      s.Called blocks.flatten (settle s errands) := by
  induction errands with
  | nil => exact fun s => ⟨[], .nil, .refl s⟩
  | cons errand errands ih =>
    intro s
    obtain ⟨block, hblock, hcalled⟩ := effect_block errand s
    obtain ⟨blocks, hblocks, hcalled'⟩ := ih (effect errand s).2
    rw [hcalled.2] at hblocks
    exact ⟨block :: blocks, .cons hblock hblocks, hcalled.trans hcalled'⟩

/-! ## With time -/

variable {s₀ s : Store} {bodies issued : List (Body interface)} {errands past : List Errand}

/-- Bodies that have ended leave the store that their operations leave without time. -/
theorem settle_of_served {endings : List Ending} (h : Schedule.Served Effect s₀ bodies endings s) :
    ∀ {errands : List Errand}, bodies.map (·.program) = errands.map (·.program engine) →
      s.untimed = (settle s₀ errands).untimed := by
  induction h with
  | none =>
    intro errands hsame
    obtain rfl : errands = [] := by simpa using hsame.symm
    rfl
  | @next bodies endings s t b e before serial effect ih =>
    intro errands hsame
    rw [List.map_append] at hsame
    obtain ⟨front, last, rfl, hfront, hlast⟩ := List.map_eq_append_iff.1 hsame.symm
    obtain ⟨errand, rfl, herrand⟩ := List.map_eq_singleton_iff.1 hlast
    rw [settle_snoc]
    exact (effect.eq herrand.symm (ih hfront.symm)).2

/-- Callers are told what those who wait are told, or that time ran out, if that can be. -/
theorem answers_of_told (late : Prop) {results : List (Option (Except Failure Unit))}
    (h : Schedule.Told engine Effect s₀ issued errands bodies results) :
    ∀ past : List Errand, issued.map (·.program) = past.map (·.program engine) →
      (∀ errand ∈ errands, errand.expiry ≠ none → late) →
      List.Forall₂
        (fun told answer => told = some answer ∨ late ∧ told = some (.error .timedOut)) results
        (answers (settle s₀ past) errands) := by
  induction h with
  | nil => exact fun _ _ _ => .nil
  | @cons issued bodies errand errands b r results program answer others ih =>
    intro past hpast hlate
    refine .cons ?_ ?_
    · obtain ⟨rfl, hout⟩ | ⟨endings, s, o, t, hserved, heffect, rfl⟩ := answer
      · exact .inr ⟨hlate errand List.mem_cons_self hout, rfl⟩
      · rw [(heffect.eq program (settle_of_served hserved hpast)).1]
        exact .inl rfl
    · rw [← settle_snoc]
      refine ih _ (by simp [hpast, program]) ?_
      exact fun other hother => hlate other (List.mem_cons_of_mem errand hother)

/-- Once all bodies have ended, the store is the one that their operations leave without time. -/
theorem settle_of_ready {x : Schedule interface Store}
    (h : Schedule.Ready keeping (fun s t => s = t) Effect s issued x)
    (hsame : issued.map (·.program) = errands.map (·.program engine))
    (hall : ∀ k < issued.length, x.hasEnded k = true) :
    x.engine.untimed = (settle s errands).untimed := by
  obtain ⟨t, hserved, rfl⟩ := h.follows.served h.numbered hall
  exact settle_of_served hserved hsame

/-- What a store shows of its past does not depend on lock timeouts. -/
theorem Store.shown {u v : Store} (h : u.untimed = v.untimed) :
    u.version = v.version ∧ u.dirty = v.dirty ∧ u.steps = v.steps ∧ u.calls = v.calls :=
  ⟨congrArg (·.version) h, congrArg (·.dirty) h, congrArg (·.steps) h, congrArg (·.calls) h⟩

/-- What is the same about a run of errands under deadlines and one in the background: what the
callers are told, unless time ran out, and the store, once every body has ended. -/
structure Serialises (s : Store) (errands : List Errand)
    (run background : List (Option (Except Failure Unit)) × Schedule interface Store) : Prop where
  told : ∃ results : List (Except Failure Unit), background.1 = results.map some ∧
    List.Forall₂
      (fun told result => told = some result ∨ told = some (.error .timedOut)) run.1 results
  ends : ∃ t₀, ∀ t, t₀ ≤ t → ∀ k < errands.length, (run.2.elapseTo t).hasEnded k = true
  store : ∀ t, (∀ k < errands.length, (run.2.elapseTo t).hasEnded k = true) →
    (run.2.elapseTo t).engine.version = background.2.engine.version ∧
    (run.2.elapseTo t).engine.dirty = background.2.engine.dirty ∧
    (run.2.elapseTo t).engine.steps = background.2.engine.steps ∧
    (run.2.elapseTo t).engine.calls = background.2.engine.calls
  blocks : ∃ blocks, List.Forall₂ (IsBlock s.faults) errands blocks ∧
    background.2.engine.calls = s.calls ++ blocks.flatten

/-- **Detached operations are serial, and their contexts do not matter.** -/
theorem follow_serialises (s : Store) (now : Instant) (errands : List Errand) :
    Serialises s errands
      (({ engine := s, now := now } : Schedule interface Store).follow engine errands)
      (({ engine := s, now := now } : Schedule interface Store).follow engine
        (errands.map (·.inBackground))) := by
  have hstart : Schedule.Ready keeping (fun s t => s = t) Effect s []
      ({ engine := s, now := now } : Schedule interface Store) := .start s now rfl
  obtain ⟨bodies, htold, hready, -⟩ := hstart.follow keeping_governs meets_effect errands
  obtain ⟨others, htold', hready', hended⟩ :=
    hstart.follow keeping_governs meets_effect (errands.map (·.inBackground))
  rw [List.nil_append] at hready hready' hended
  have hsame := htold.programs
  have hsame' : others.map (·.program) = errands.map (·.program engine) := by
    simpa [Function.comp_def] using htold'.programs
  have hlength : bodies.length = errands.length := by simpa using congrArg List.length hsame
  -- without deadlines every body has ended when the last call returns
  have hbackground := settle_of_ready hready' hsame' (hended (by simp [Errand.inBackground]) nofun)
  refine ⟨⟨answers s errands, ?_, ?_⟩, ?_, fun t hall => ?_, ?_⟩
  · have hanswers := answers_of_told False htold' [] rfl (by simp [Errand.inBackground])
    rw [settle, List.foldl_nil, answers_inBackground] at hanswers
    rw [← List.forall₂_eq_eq_eq, List.forall₂_map_right_iff]
    simpa using hanswers
  · have hanswers := answers_of_told True htold [] rfl fun _ _ _ => trivial
    simpa [settle] using hanswers
  · rw [← hlength]
    exact hready.elapse_ends keeping_governs
  · rw [← hlength] at hall
    have hrun := settle_of_ready (hready.elapseTo keeping_governs t) hsame hall
    exact Store.shown (hrun.trans hbackground.symm)
  · obtain ⟨blocks, hblocks, hcalled⟩ := settle_blocks errands s
    exact ⟨blocks, hblocks, (Store.shown hbackground).2.2.2.trans hcalled.1⟩

end Stairway.Memory
