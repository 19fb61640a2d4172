import Stairway.Proofs.Controller.Prompts
import Stairway.Proofs.Memory.Serial

/-!
# How the recorded version moves

A `Walk` goes from record to record, each step as a relation permits; `Transition.Permits` is the
relation for an operation: an assertion permits nothing, the others mark the version clean or move
it by one towards the version that is desired, never past it. `Watched` is a store that stop
requests come to from outside and that keeps every record that it has had.

`Chronicle` is what of it matters to an operation, and `chronicling_operation` what an operation
comes to: a walk that it permits, at whose end the record is clean if it was at the start. The
version moves in the loop of `stepsUpTo`, which stays on its side of the target
(`chronicling_stepsUpTo`). Which stops are found is left open, and so is which faults are planned.
-/

namespace Stairway

/-! ## Walks -/

/-- A way from one record to another, through these records. -/
inductive Walk (R : SchemaVersion → SchemaVersion → Prop) (r : SchemaVersion) :
    List SchemaVersion → SchemaVersion → Prop where
  | rest : Walk R r [] r
  | step {records : List SchemaVersion} {a b : SchemaVersion} (before : Walk R r records a)
      (next : R a b) :
      Walk R r (records ++ [b]) b

namespace Walk

variable {R R' : SchemaVersion → SchemaVersion → Prop} {r a b : SchemaVersion}
  {front back : List SchemaVersion}

theorem mono (h : Walk R r back a) (hR : ∀ a b, R a b → R' a b) : Walk R' r back a := by
  induction h with
  | rest => exact .rest
  | step _ next ih => exact .step ih (hR _ _ next)

theorem single (h : R r a) : Walk R r [a] a := by
  have hstep : Walk R r ([] ++ [a]) a := .step .rest h
  exact hstep

theorem trans (h : Walk R r front a) (h' : Walk R a back b) : Walk R r (front ++ back) b := by
  induction h' with
  | rest =>
    rw [List.append_nil]
    exact h
  | step _ next ih =>
    rw [← List.append_assoc]
    exact .step ih next

/-- The last record is where a walk ends, whatever it was permitted. -/
theorem last_eq (h : Walk R r back a) : a = back.getLastD r := by
  cases h with
  | rest => rfl
  | step _ _ => simp

/-- The front of a walk is a walk. -/
theorem front_walk (h : Walk R r (front ++ back) b) : ∃ m, Walk R r front m := by
  generalize hwhole : front ++ back = whole at h
  induction h generalizing back with
  | rest =>
    rw [List.append_eq_nil_iff] at hwhole
    exact ⟨r, hwhole.1 ▸ .rest⟩
  | @step records _ b before next ih =>
    rcases List.eq_nil_or_concat back with rfl | ⟨back, c, rfl⟩
    · rw [List.append_nil] at hwhole
      exact ⟨b, hwhole ▸ .step before next⟩
    · rw [List.concat_eq_append, ← List.append_assoc] at hwhole
      exact ih (List.append_inj' hwhole rfl).1

/-- Where nothing is permitted nothing changes. -/
theorem still (h : Walk R r back a) (hnone : ∀ a b, ¬ R a b) : back = [] ∧ a = r := by
  cases h with
  | rest => exact ⟨rfl, rfl⟩
  | step _ next => exact absurd next (hnone _ _)

/-- A walk each step of which goes one way goes that way as a whole. -/
theorem pairwise (h : Walk R r back a) (hrefl : ∀ a, R a a)
    (htrans : ∀ a b c, R a b → R b c → R a c) :
    (r :: back).Pairwise R ∧ ∀ b ∈ r :: back, R b a := by
  induction h with
  | rest => exact ⟨List.pairwise_singleton _ _, by simpa using hrefl r⟩
  | @step records a b before next ih =>
    have hall : ∀ c ∈ r :: records, R c b := fun c hc => htrans c a b (ih.2 c hc) next
    rw [← List.cons_append]
    refine ⟨List.pairwise_append.2 ⟨ih.1, List.pairwise_singleton _ _, by simpa using hall⟩, ?_⟩
    intro c hc
    rcases List.mem_append.1 hc with hc | hc
    · exact hall c hc
    · rw [List.mem_singleton.1 hc]
      exact hrefl b

end Walk

/-- What a body may do to the record: mark it clean, or begin a step towards the version that is
desired. -/
inductive Transition.Permits (desired : Nat) :
    Transition → SchemaVersion → SchemaVersion → Prop where
  | cleaned {kind : Transition} (version : Nat) (moves : kind ≠ .assert) :
      Permits desired kind ⟨version, true⟩ ⟨version, false⟩
  | raised {version : Nat} (dirty : Bool) (below : version < desired) :
      Permits desired .apply ⟨version, dirty⟩ ⟨version + 1, true⟩
  | lowered {version : Nat} (dirty : Bool) (above : desired ≤ version) :
      Permits desired .rollback ⟨version + 1, dirty⟩ ⟨version, true⟩

/-- Which operations lead from a version to the one that is desired. -/
def Transition.Heads (desired version : Nat) : Transition → Prop
  | .assert => False
  | .apply => version ≤ desired
  | .rollback => desired ≤ version

namespace Transition.Permits

variable {desired : Nat} {kind : Transition} {a b : SchemaVersion}

theorem not_assert (h : kind.Permits desired a b) : kind ≠ .assert := by
  cases h with
  | cleaned _ moves => exact moves
  | raised => nofun
  | lowered => nofun

/-- Only a rollback lowers the version. -/
theorem le_of_not_rollback (h : kind.Permits desired a b) (hkind : kind ≠ .rollback) :
    a.version ≤ b.version := by
  cases h with
  | cleaned => exact Nat.le_refl _
  | raised => exact Nat.le_succ _
  | lowered => exact absurd rfl hkind

/-- Only an apply raises it. -/
theorem ge_of_not_apply (h : kind.Permits desired a b) (hkind : kind ≠ .apply) :
    b.version ≤ a.version := by
  cases h with
  | cleaned => exact Nat.le_refl _
  | raised => exact absurd rfl hkind
  | lowered => exact Nat.le_succ _

end Transition.Permits

namespace Memory

open Program (onSuccess)

/-! ## Stores that are watched -/

/-- What a store records; no version counts as 0. -/
def Store.recorded (s : Store) : SchemaVersion := ⟨s.version.getD 0, s.dirty⟩

/-- A store that stop requests come to from outside, and the records that it has had since it was
first looked at. -/
structure Watched where
  machine : Prompted Store
  changes : List SchemaVersion := []

def Watched.record (m : Watched) : SchemaVersion := m.machine.machine.recorded

instance : Machine interface Watched where
  arrive r now m :=
    let (delay, machine) := Machine.arrive r now m.machine
    (delay, { m with machine })
  answer r now m :=
    let (a, machine) := Machine.answer r now m.machine
    let record := machine.machine.recorded
    (a, ⟨machine, if record = m.record then m.changes else m.changes ++ [record]⟩)

/-- **To watch changes nothing.** -/
theorem unwatched : Machine.Commutes interface Watched.machine where
  arrive _ _ _ := rfl
  answer _ _ _ := rfl

/-! ## What matters to an operation -/

/-- The record of a store, and the changes to it so far. -/
structure Chronicle where
  version : Option Nat
  dirty : Bool
  changes : List SchemaVersion

namespace Chronicle

def record (c : Chronicle) : SchemaVersion := ⟨c.version.getD 0, c.dirty⟩

/-- What is read of the version: none, if there is none. -/
def read (c : Chronicle) : Option SchemaVersion := c.version.map (⟨·, c.dirty⟩)

/-- A database without a version counts as clean at 0. -/
theorem read_getD (c : Chronicle) : (c.read.getD ⟨0, false⟩).version = c.record.version ∧
    ((c.read.getD ⟨0, false⟩).dirty = true → c.dirty = true) := by
  rcases hversion : c.version with _ | v
  · simp [read, record, hversion]
  · simp [read, record, hversion]

/-- Another record takes the place of this one. -/
def put (c : Chronicle) (version : Option Nat) (dirty : Bool) : Chronicle :=
  ⟨version, dirty,
    if (⟨version.getD 0, dirty⟩ : SchemaVersion) = c.record then c.changes
    else c.changes ++ [⟨version.getD 0, dirty⟩]⟩

/-- What a request does. -/
def after (c : Chronicle) : Request → Chronicle
  | .beginStep next => c.put (some next) true
  | .endStep next => c.put (if next = 0 then none else c.version) false
  | .force v => c.put (if 0 ≤ v then some v.toNat else none) false
  | _ => c

/-- What is known of an answer: the version that is read, or that a migration starts from, is the
one that is recorded. -/
def Answers (c : Chronicle) : (r : Request) → r.Answer → Prop
  | .version, a => ∀ v, a = .ok v → v = c.read
  | .startMigration _, a => ∀ delay v, a = .ok (delay, v) → v = c.record.version
  | _, _ => True

/-- One chronicle goes on from another by a walk. -/
def Leads (R : SchemaVersion → SchemaVersion → Prop) (c d : Chronicle) : Prop :=
  ∃ records, d.changes = c.changes ++ records ∧ Walk R c.record records d.record

/-- At the end of the walk the record is clean if it was at the start. -/
structure Passes (R : SchemaVersion → SchemaVersion → Prop) (c d : Chronicle) : Prop where
  leads : Leads R c d
  clean : c.dirty = false → d.dirty = false

variable {R : SchemaVersion → SchemaVersion → Prop} {c d e : Chronicle}

theorem Leads.refl (R : SchemaVersion → SchemaVersion → Prop) (c : Chronicle) : Leads R c c :=
  ⟨[], by simp, .rest⟩

theorem Leads.trans (h : Leads R c d) (h' : Leads R d e) : Leads R c e := by
  obtain ⟨front, hfront, hwalk⟩ := h
  obtain ⟨back, hback, hwalk'⟩ := h'
  exact ⟨front ++ back, by rw [hback, hfront, List.append_assoc], hwalk.trans hwalk'⟩

theorem Passes.refl (R : SchemaVersion → SchemaVersion → Prop) (c : Chronicle) : Passes R c c :=
  ⟨.refl R c, id⟩

theorem Passes.trans (h : Passes R c d) (h' : Passes R d e) : Passes R c e :=
  ⟨h.leads.trans h'.leads, h'.clean ∘ h.clean⟩

/-- To put a record there that is permitted is a step, or none. -/
theorem leads_put (version : Option Nat) (dirty : Bool) (h : R c.record ⟨version.getD 0, dirty⟩) :
    Leads R c (c.put version dirty) := by
  by_cases hsame : (⟨version.getD 0, dirty⟩ : SchemaVersion) = c.record
  · have hrecord : (c.put version dirty).record = c.record := hsame
    exact ⟨[], by simp [put, hsame], hrecord ▸ .rest⟩
  · exact ⟨[⟨version.getD 0, dirty⟩], by simp [put, hsame], .single h⟩

/-- Whatever is asked, the changes so far stay. -/
theorem leads_after (c : Chronicle) (r : Request) : Leads (fun _ _ => True) c (c.after r) := by
  cases r with
  | beginStep next => exact leads_put _ _ trivial
  | endStep next => exact leads_put _ _ trivial
  | force v => exact leads_put _ _ trivial
  | _ => exact .refl _ c

end Chronicle

/-- What is asked of a store, and what becomes of its chronicle. -/
def chronicling : Protocol interface Chronicle where
  allows _ _ := True
  leads c r a d := d = c.after r ∧ c.Answers r a

theorem leads_of_reaches {c d : Chronicle} (h : chronicling.Reaches c d) :
    c.Leads (fun _ _ => True) d := by
  induction h with
  | refl c => exact .refl _ c
  | step _ ha _ ih =>
    obtain ⟨rfl, -⟩ := ha
    exact (Chronicle.leads_after _ _).trans ih

def Watched.chronicle (m : Watched) : Chronicle :=
  ⟨m.machine.machine.version, m.machine.machine.dirty, m.changes⟩

/-- Stop requests from outside leave the record alone. -/
theorem looked_record (now : Instant) (m : Prompted Store) :
    (m.looked interface now).machine.version = m.machine.version ∧
      (m.looked interface now).machine.dirty = m.machine.dirty := by
  unfold Prompted.looked
  split
  · exact ⟨rfl, rfl⟩
  · split <;> exact ⟨rfl, rfl⟩

/-- Whatever is asked of a store, its chronicle goes on as it should. -/
theorem serve_chronicle (s : Store) (changes : List SchemaVersion) (r : Request) :
    let c : Chronicle := ⟨s.version, s.dirty, changes⟩
    let t := (s.serve r).2
    (⟨t.version, t.dirty, if t.recorded = s.recorded then changes else changes ++ [t.recorded]⟩ :
      Chronicle) =
      c.after r ∧ c.Answers r (s.serve r).1 := by
  cases r with
  | version =>
    cases hc : s.closed <;>
      simp [Store.serve, Store.record, Store.recorded, Chronicle.after, Chronicle.Answers,
        Chronicle.read, hc]
  | startMigration target =>
    cases hm : s.migrateError with
    | some text =>
      simp [Store.serve, Store.record, Store.recorded, Chronicle.after, Chronicle.Answers, hm]
    | none =>
      by_cases hlt : s.available < target <;>
        simp [Store.serve, Store.record, Store.recorded, Chronicle.after, Chronicle.Answers,
          Chronicle.record, hm, hlt]
  | _ =>
    refine ⟨?_, trivial⟩
    simp [Store.serve, Store.record, Store.recorded, Chronicle.after, Chronicle.put,
      Chronicle.record]

theorem chronicling_governs : chronicling.Governs fun c (m : Watched) => m.chronicle = c where
  arrive r now hl _ := hl
  answer := by
    rintro _ m r now rfl -
    have hlooked : ∃ n : Prompted Store,
        n = (if Stoppable.isLook r then m.machine.looked interface now
          else m.machine) ∧ n.machine.version = m.machine.machine.version ∧
        n.machine.dirty = m.machine.machine.dirty := by
      refine ⟨_, rfl, ?_⟩
      split
      · exact looked_record now m.machine
      · exact ⟨rfl, rfl⟩
    obtain ⟨n, hn, hversion, hdirty⟩ := hlooked
    have hserved := serve_chronicle n.machine m.changes r
    have hrecorded : n.machine.recorded = m.record := by
      rw [Watched.record, Store.recorded, Store.recorded, hversion, hdirty]
    rw [hversion, hdirty, hrecorded, hn] at hserved
    exact ⟨_, hserved, rfl⟩

/-! ## What is asked -/

variable {α : Type} {c : Chronicle}

theorem chronicling_ask {r : Request} {f : r.Answer → Program interface α}
    {Q : Outcome α → Chronicle → Prop}
    (h : ∀ a, c.Answers r a → (f a).Obeys chronicling Q (c.after r)) :
    (ask r >>= f).Obeys chronicling Q c := by
  refine ⟨trivial, ?_⟩
  rintro a _ ⟨rfl, ha⟩
  exact h a ha

/-- A fault takes the place of what is guarded, and leaves the record alone. -/
theorem chronicling_guarded {point : Point} {p : Program interface (Except EngineError α)}
    {ok : α → Chronicle → Prop} {ended : Chronicle → Prop} (hfault : ended c)
    (hp : p.Obeys chronicling (onSuccess ok ended) c) :
    (guarded point p).Obeys chronicling (onSuccess ok ended) c := by
  refine chronicling_ask ?_
  rintro (_ | _ | _) -
  · exact hp
  · exact hfault
  · exact hfault

theorem chronicling_step (delay : Duration) (next : Nat) (c : Chronicle) :
    (step delay next).Obeys chronicling
      (fun _ d => d = (c.after (.beginStep next)).after (.endStep next)) c := by
  refine chronicling_ask fun _ _ => ?_
  split
  · exact chronicling_ask (f := Program.done) fun _ _ => rfl
  · exact chronicling_ask (f := Program.done) fun _ _ => rfl

/-- A step that is permitted is a walk, and leaves its version behind, clean. -/
theorem passes_step {kind : Transition} {desired next : Nat}
    (h : kind.Permits desired c.record ⟨next, true⟩) :
    Chronicle.Passes (kind.Permits desired) c ((c.after (.beginStep next)).after (.endStep next)) ∧
      ((c.after (.beginStep next)).after (.endStep next)).record = ⟨next, false⟩ := by
  have hnext : (if next = 0 then none else some next).getD 0 = next := by
    split
    · next hzero => exact hzero.symm
    · rfl
  have hcleaned : kind.Permits desired (c.after (.beginStep next)).record
      ⟨(if next = 0 then none else (c.after (.beginStep next)).version).getD 0, false⟩ := by
    change kind.Permits desired ⟨next, true⟩ ⟨(if next = 0 then none else some next).getD 0, false⟩
    rw [hnext]
    exact .cleaned next h.not_assert
  refine ⟨⟨(Chronicle.leads_put (some next) true h).trans (Chronicle.leads_put _ _ hcleaned),
    fun _ => rfl⟩, ?_⟩
  change (⟨(if next = 0 then none else some next).getD 0, false⟩ : SchemaVersion) = _
  rw [hnext]

/-- A step towards the version that is desired is permitted, and leads on to it. -/
theorem heads_toward {kind : Transition} {target current : Nat} (h : kind.Heads target current)
    (hne : current ≠ target) (dirty : Bool) :
    kind.Permits target ⟨current, dirty⟩ ⟨toward target current, true⟩ ∧
      kind.Heads target (toward target current) := by
  cases kind with
  | assert => exact h.elim
  | apply =>
    have hlt : current < target := Nat.lt_of_le_of_ne h hne
    rw [toward, if_pos hlt]
    exact ⟨.raised dirty hlt, hlt⟩
  | rollback =>
    obtain ⟨v, rfl⟩ : ∃ v, current = v + 1 := by
      have hlt : target < current := Nat.lt_of_le_of_ne h hne.symm
      exact ⟨current - 1, by omega⟩
    have hle : target ≤ v := Nat.le_of_lt_succ (Nat.lt_of_le_of_ne h hne.symm)
    rw [toward, if_neg (Nat.not_lt.2 h)]
    exact ⟨.lowered dirty hle, hle⟩

/-- **The version stays on its side of the target**, and goes towards it one by one. -/
theorem chronicling_stepsUpTo {kind : Transition} {target : Nat} (delay : Duration)
    (current : Nat) :
    ∀ {c : Chronicle}, c.record.version = current → kind.Heads target current →
      (stepsUpTo delay target current).Obeys chronicling
        (fun _ d => c.Passes (kind.Permits target) d) c := by
  -- by induction on the way to the target; a stop is found at the end of a step, so the record is
  -- clean
  induction current using stepsUpTo.induct target with
  | case1 =>
    intro c _ _
    rw [stepsUpTo, dif_pos rfl]
    exact .refl _ c
  | case2 current hne ih =>
    intro c hversion hheads
    obtain ⟨hpermits, hheads'⟩ := heads_toward hheads hne c.dirty
    rw [stepsUpTo_eq hne]
    refine chronicling_ask fun found _ => ?_
    split
    · exact .refl _ c
    · have hrecord : c.record = ⟨current, c.dirty⟩ := by
        rw [← hversion]
        rfl
      obtain ⟨hpasses, hreached⟩ := passes_step (hrecord ▸ hpermits)
      refine Program.obeys_bind.2 ((chronicling_step delay _ c).mono ?_)
      rintro (_ | _) _ rfl
      · refine (ih (by rw [hreached]; rfl) hheads').mono fun _ d hd => ?_
        exact hpasses.trans hd
      · exact hpasses

theorem chronicling_migrateTo (kind : Transition) (target : Nat)
    (hheads : kind.Heads target c.record.version) :
    (engine.migrateTo target).Obeys chronicling
      (fun _ d => c.Passes (kind.Permits target) d) c := by
  refine Program.obeys_onSuccess.1 (chronicling_guarded (.refl _ c) (Program.obeys_onSuccess.2 ?_))
  refine chronicling_ask ?_
  rintro (e | ⟨delay, current⟩) hanswer
  · exact .refl _ c
  · obtain rfl := hanswer delay current rfl
    exact chronicling_stepsUpTo delay _ rfl hheads

theorem chronicling_version (c : Chronicle) : engine.version.Obeys chronicling
    (onSuccess (fun v d => d = c ∧ v = c.read) (· = c)) c := by
  refine chronicling_guarded rfl (chronicling_ask (f := Program.done) ?_)
  rintro (e | v) hanswer
  · rfl
  · exact ⟨rfl, hanswer v rfl⟩

/-- To force the version that is recorded marks it clean. -/
theorem chronicling_force (kind : Transition) (desired : Nat) (moves : kind ≠ .assert)
    (hdirty : c.dirty = true) :
    (engine.force c.record.version).Obeys chronicling
      (onSuccess
        (fun _ d => c.Passes (kind.Permits desired) d ∧ d.record.version = c.record.version)
        (· = c)) c := by
  have hforced :
      (if (0 : Int) ≤ c.record.version then some (c.record.version : Int).toNat else none) =
      some c.record.version := by simp
  have hcleaned : kind.Permits desired c.record ⟨(some c.record.version).getD 0, false⟩ := by
    have hrecord : c.record = ⟨c.record.version, true⟩ := by
      rw [← hdirty]
      rfl
    rw [hrecord]
    exact .cleaned c.record.version moves
  have hafter : c.after (.force c.record.version) = c.put (some c.record.version) false := by
    rw [Chronicle.after, hforced]
  refine chronicling_guarded rfl (chronicling_ask fun _ _ => ?_)
  rw [hafter]
  exact ⟨⟨Chronicle.leads_put _ _ hcleaned, fun _ => rfl⟩, rfl⟩

/-- What is known of the record from phase to phase. -/
theorem chronicling_phases (c : Chronicle) (kind : Transition) (desired : Nat) :
    Engine.Phases chronicling engine kind desired (· = c)
      (fun v d => d = c ∧ v = c.read.getD ⟨0, false⟩)
      (fun v d => c.Passes (kind.Permits desired) d ∧ d.record.version = v.version)
      (fun d => c.Passes (kind.Permits desired) d) where
  read_ended := by
    rintro _ _ ⟨rfl, -⟩
    exact .refl _ _
  repaired_ended _ _ hd := hd.1
  log_read _ _ _ hd := chronicling_ask (f := Program.done) fun _ _ => hd
  log_repaired _ _ _ hd := chronicling_ask (f := Program.done) fun _ _ => hd
  log_ended _ _ hd := chronicling_ask (f := Program.done) fun _ _ => hd
  version := by
    rintro c rfl
    refine (chronicling_version c).mono ?_
    rintro ((e | v) | _) d hd
    · exact hd ▸ .refl _ c
    · exact ⟨hd.1, congrArg (·.getD ⟨0, false⟩) hd.2⟩
    · exact hd ▸ .refl _ c
  force := by
    rintro rfl _ c ⟨rfl, rfl⟩ hdirty -
    obtain ⟨hversion, hread⟩ := c.read_getD
    rw [hversion]
    refine (chronicling_force .rollback desired nofun (hread hdirty)).mono ?_
    rintro ((e | v) | _) d hd
    · exact hd ▸ .refl _ c
    · exact hd
    · exact hd ▸ .refl _ c
  migrateUp := by
    rintro rfl _ c ⟨rfl, rfl⟩ - hlt
    rw [c.read_getD.1] at hlt
    exact chronicling_migrateTo .apply desired (Nat.le_of_lt hlt)
  migrateDown := by
    rintro rfl v d hd hlt
    obtain ⟨hpasses, hversion⟩ : c.Passes (Transition.rollback.Permits desired) d ∧
        d.record.version = v.version := by
      split at hd
      · exact hd
      · obtain ⟨rfl, rfl⟩ := hd
        exact ⟨.refl _ _, d.read_getD.1.symm⟩
    rw [← hversion] at hlt
    refine (chronicling_migrateTo .rollback desired (Nat.le_of_lt hlt)).mono fun _ e he => ?_
    exact hpasses.trans he
  setLockTimeout _ _ hd := chronicling_ask (f := Program.done) fun _ _ => hd
  restore _ hd := chronicling_ask fun _ _ => chronicling_ask (f := Program.done) fun _ _ => hd

/-- **An operation makes a walk that it permits**, and leaves a clean record clean. -/
theorem chronicling_operation (c : Chronicle) (kind : Transition) (desired : Nat)
    (remaining : Option Duration) : (engine.operation kind desired remaining).Obeys chronicling
      (fun _ d => c.Passes (kind.Permits desired) d) c :=
  (chronicling_phases c kind desired).operation remaining rfl

/-! ## Closes -/

theorem chronicling_close (c : Chronicle) :
    engine.close.Obeys chronicling (fun _ d => d = c) c := by
  refine chronicling_ask fun result _ => chronicling_ask fun source _ => chronicling_ask
    fun database _ => ?_
  split <;> exact rfl

/-- A close leaves the record alone, before it has the engine and when it has. -/
theorem chronicling_closing (isBenign : String → Bool) (c : Chronicle) :
    (engine.closing isBenign).Obeys chronicling (fun _ d => d = c) c := by
  refine (Program.obeys_bind (p := engine.close)).2 ((chronicling_close c).mono ?_)
  rintro (result | _) _ rfl
  · simp only [Program.afterwards]
    split
    · exact rfl
    · exact chronicling_ask fun _ _ => rfl
  · rfl

theorem chronicling_announceClose (c : Chronicle) :
    engine.announceClose.Obeys chronicling (fun _ d => d = c) c :=
  chronicling_ask fun _ _ => chronicling_ask fun _ _ => rfl

end Memory

end Stairway
