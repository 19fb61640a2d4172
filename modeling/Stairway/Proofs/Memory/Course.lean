import Stairway.Proofs.Controller.Moments
import Stairway.Proofs.Memory.Walks

/-!
# A controller moves the version the right way

A run is looked at at any of its moments: some calls have returned, a last one may be under way, a
close may have been called. `Course` says of the bodies that have ended that each has made a walk
that its operation permits, one after the other, and that none has left a clean record dirty;
`OnCourse` adds the body that has the engine, which is part of the way through such a walk. So the
record changes in bodies only (`Orderly.onCourse`), and what no operation of a run does, the run
does not do (`OnCourse.walk`).
-/

namespace Stairway

open Memory
  (interface Store Watched Chronicle chronicling chronicling_governs chronicling_operation)

/-- What the body of an operation may do to the record; the body of a close may do nothing. -/
def permitted : Option Errand → SchemaVersion → SchemaVersion → Prop
  | none, _, _ => False
  | some errand, a, b => errand.kind.Permits errand.desired a b

/-! ## Courses -/

/-- The way that bodies have gone which have ended, each an operation or the close. -/
inductive Course (r₀ : SchemaVersion) : List (Option Errand) → List SchemaVersion →
    SchemaVersion → Prop where
  | start : Course r₀ [] [] r₀
  | body {jobs : List (Option Errand)} {job : Option Errand} {past records : List SchemaVersion}
      {r r' : SchemaVersion} (before : Course r₀ jobs past r)
        (walk : Walk (permitted job) r records r')
      (clean : r.dirty = false → r'.dirty = false) : Course r₀ (jobs ++ [job]) (past ++ records) r'

/-- What every job permits, the course is permitted. -/
theorem Course.walk {R : SchemaVersion → SchemaVersion → Prop} {r₀ r : SchemaVersion}
    {jobs : List (Option Errand)} {past : List SchemaVersion} (h : Course r₀ jobs past r)
    (hR : ∀ job ∈ jobs, ∀ a b, permitted job a b → R a b) : Walk R r₀ past r := by
  induction h with
  | start => exact .rest
  | body _ walk _ ih =>
    refine (ih fun job hjob => hR job (List.mem_append_left _ hjob)).trans (walk.mono ?_)
    exact hR _ (by simp)

/-- How the record of a store has come to be what it is, from `r₀` on. -/
inductive OnCourse (r₀ : SchemaVersion) (jobs : List (Option Errand))
    (x : Schedule interface Watched) :
    Prop where
  /-- Nobody has the engine: the changes are those of the bodies that have ended. -/
  | free (holder : x.holder = none)
      (ended : Course r₀ (jobs.take x.endings.length) x.engine.changes x.engine.record)
  /-- The next body has it, and is on its way. -/
  | held {a : Activity interface (Except Failure Unit)} {job : Option Errand}
      {past current : List SchemaVersion} {r : SchemaVersion}
        (holder : x.holder = some (x.endings.length, a))
      (turn : jobs[x.endings.length]? = some job)
        (ended : Course r₀ (jobs.take x.endings.length) past r)
      (walk : Walk (permitted job) r current x.engine.record)
        (changes : x.engine.changes = past ++ current)

namespace OnCourse

variable {r₀ : SchemaVersion} {jobs : List (Option Errand)} {x : Schedule interface Watched}

/-- What every job permits, the whole run is permitted. -/
theorem walk {R : SchemaVersion → SchemaVersion → Prop} (h : OnCourse r₀ jobs x)
    (hR : ∀ job ∈ jobs, ∀ a b, permitted job a b → R a b) :
    Walk R r₀ x.engine.changes x.engine.record := by
  cases h with
  | free _ ended => exact ended.walk fun job hjob => hR job (List.mem_of_mem_take hjob)
  | held _ turn ended walk changes =>
    rw [changes]
    refine (ended.walk fun job hjob => hR job (List.mem_of_mem_take hjob)).trans (walk.mono ?_)
    exact hR _ (List.mem_of_getElem? turn)

/-- What every operation permits: the body of a close permits nothing. -/
theorem walk_of_permits {R : SchemaVersion → SchemaVersion → Prop} (h : OnCourse r₀ jobs x)
    (hR : ∀ errand, some errand ∈ jobs → ∀ a b, errand.kind.Permits errand.desired a b → R a b) :
    Walk R r₀ x.engine.changes x.engine.record := by
  refine h.walk ?_
  rintro (_ | errand) hjob a b hab
  · exact hab.elim
  · exact hR errand hjob a b hab

/-- Without a rollback the version is never lowered. -/
theorem neverLowered (h : OnCourse r₀ jobs x)
    (hkinds : ∀ errand, some errand ∈ jobs → errand.kind ≠ .rollback) :
    (r₀ :: x.engine.changes).Pairwise (·.version ≤ ·.version) := by
  have hwalk : Walk (fun a b => a.version ≤ b.version) r₀ x.engine.changes x.engine.record :=
    h.walk_of_permits fun errand hjob _ _ hab => hab.le_of_not_rollback (hkinds errand hjob)
  exact (hwalk.pairwise (fun _ => Nat.le_refl _) fun _ _ _ => Nat.le_trans).1

/-- Without an apply it is never raised. -/
theorem neverRaised (h : OnCourse r₀ jobs x)
    (hkinds : ∀ errand, some errand ∈ jobs → errand.kind ≠ .apply) :
    (r₀ :: x.engine.changes).Pairwise fun a b => b.version ≤ a.version := by
  have hwalk : Walk (fun a b => b.version ≤ a.version) r₀ x.engine.changes x.engine.record :=
    h.walk_of_permits fun errand hjob _ _ hab => hab.ge_of_not_apply (hkinds errand hjob)
  exact (hwalk.pairwise (fun _ => Nat.le_refl _) fun _ _ _ hab hbc => Nat.le_trans hbc hab).1

/-- Assertions change nothing. -/
theorem untouched (h : OnCourse r₀ jobs x)
    (hkinds : ∀ errand, some errand ∈ jobs → errand.kind = .assert) :
    x.engine.changes = [] ∧ x.engine.record = r₀ := by
  have hwalk : Walk (fun _ _ => False) r₀ x.engine.changes x.engine.record :=
    h.walk_of_permits fun errand hjob _ _ hab => hab.not_assert (hkinds errand hjob)
  exact hwalk.still fun _ _ => id

end OnCourse

/-! ## Bodies -/

namespace Schedule

/-- A body goes the way that its job permits. -/
def Goes (jobs : List (Option Errand)) (b : Body interface) (c : Chronicle)
    (_ : Outcome (Except Failure Unit)) (d : Chronicle) : Prop :=
  ∀ job, jobs[b.serial]? = some job → c.Passes (permitted job) d

theorem meets_errand {jobs : List (Option Errand)} {k : Nat} {errand : Errand}
    (hjob : jobs[k]? = some (some errand)) :
    Meets chronicling (Goes jobs) (errand.body Memory.engine k) := by
  intro c now
  refine (chronicling_operation c errand.kind errand.desired _).mono fun _ d hd => ?_
  intro job hk
  obtain rfl : some errand = job := Option.some.inj (hjob.symm.trans hk)
  exact hd

theorem meets_close {jobs : List (Option Errand)} (isBenign : String → Bool) (k : Nat) :
    Meets chronicling (Goes jobs) ⟨k, none, fun _ => Memory.engine.closing isBenign⟩ := by
  intro c now
  refine (Memory.chronicling_closing isBenign c).mono ?_
  rintro _ _ rfl job -
  exact .refl _ _

theorem announceClose_unseen :
    Discreet (fun c (m : Watched) => m.chronicle = c) Memory.engine.announceClose :=
  discreet_of_obeys chronicling_governs Memory.chronicling_announceClose

variable {jobs : List (Option Errand)} {c₀ c : Chronicle} {issued bodies : List (Body interface)}
  {x : Schedule interface Watched}

/-- Bodies that have ended have gone a course. -/
theorem course_of_served (hstart : c₀.changes = []) {endings : List Ending}
    (h : Served (Goes jobs) c₀ bodies endings c) :
    ∀ {rest : List (Body interface)}, Numbered (bodies ++ rest) → bodies.length ≤ jobs.length →
      Course c₀.record (jobs.take endings.length) c.changes c.record := by
  induction h with
  | none =>
    intro rest _ _
    rw [hstart]
    exact .start
  | @next bodies endings c d b e before serial effect ih =>
    intro rest hn hlength
    rw [List.length_append, List.length_singleton] at hlength
    rw [List.append_assoc] at hn
    have hended : endings.length = bodies.length := by
      simpa using congrArg List.length before.serials
    have hjob : jobs[b.serial]? = some jobs[bodies.length] := by
      rw [hn.serial_at]
      exact List.getElem?_eq_getElem hlength
    obtain ⟨⟨records, hrecords, hwalk⟩, hclean⟩ := effect _ hjob
    have htake : jobs.take (endings ++ [e]).length = jobs.take endings.length ++
        [jobs[bodies.length]] := by
      rw [List.length_append, List.length_singleton, hended,
        List.take_succ_eq_append_getElem hlength]
    rw [htake, hrecords]
    exact .body (ih hn (Nat.le_of_succ_le hlength)) hwalk hclean

/-- **A schedule that follows its bodies is on course.** -/
theorem Orderly.onCourse (hstart : c₀.changes = [])
    (h : Orderly chronicling (fun c (m : Watched) => m.chronicle = c) (Goes jobs) c₀ issued x)
    (hlength : issued.length ≤ jobs.length) : OnCourse c₀.record jobs x := by
  have hn := h.numbered
  have hfollows := h.follows
  cases hfollows with
  | free holder served linked =>
    rw [List.length_append] at hlength
    subst linked
    exact .free holder (course_of_served hstart served hn (by omega))
  | @held _ ended c d b a holder served reached obeys linked =>
    subst linked
    rw [List.length_append, List.length_cons] at hlength
    have hended : x.endings.length = ended.length := by
      simpa using congrArg List.length served.serials
    have hserial : b.serial = x.endings.length := hn.serial_at.trans hended.symm
    have hturn : jobs[x.endings.length]? = some jobs[ended.length] := by
      rw [hended]
      exact List.getElem?_eq_getElem (by omega)
    -- what the body has changed so far is the front of what it would have changed at its end
    obtain ⟨o, u, hends, heffect⟩ := chronicling_governs.conclude obeys rfl
    obtain ⟨⟨records, hrecords, hwalk⟩, -⟩ := heffect _ (hserial ▸ hturn)
    obtain ⟨front, hfront, hgone⟩ := Memory.leads_of_reaches reached
    obtain ⟨back, hback, -⟩ := Memory.leads_of_reaches hends
    have hsplit : records = front ++ back := by
      rw [hback, hfront, List.append_assoc] at hrecords
      exact (List.append_cancel_left hrecords).symm
    obtain ⟨m, hwalked⟩ := (hsplit ▸ hwalk).front_walk
    obtain rfl : m = x.engine.record := hwalked.last_eq.trans hgone.last_eq.symm
    exact .held (hserial ▸ holder) hturn
      (course_of_served hstart served hn (by omega)) hwalked hfront

/-! ## The right way -/

/-- What is true of a controller at a moment of a run with these jobs. The changes of the record
since it was `r₀` are read off `watched`, which is `run` otherwise. -/
structure RightWay (r₀ : SchemaVersion) (jobs : List (Option Errand))
    (run : Schedule interface (Prompted Store)) (watched : Schedule interface Watched) : Prop where
  /-- To watch changes nothing. -/
  same : run = watched.map Watched.machine
  /-- Bodies end in the order of their issue. -/
  order : watched.endings.map (·.serial) = List.range watched.endings.length
  /-- The record changes in bodies only, each as its operation permits. -/
  course : OnCourse r₀ jobs watched
  /-- The changes lead to what is recorded now. -/
  latest : watched.engine.record = watched.engine.changes.getLastD r₀
  neverLowered : (∀ errand, some errand ∈ jobs → errand.kind ≠ .rollback) →
    (r₀ :: watched.engine.changes).Pairwise (·.version ≤ ·.version)
  neverRaised : (∀ errand, some errand ∈ jobs → errand.kind ≠ .apply) →
    (r₀ :: watched.engine.changes).Pairwise fun a b => b.version ≤ a.version
  untouched : (∀ errand, some errand ∈ jobs → errand.kind = .assert) →
    watched.engine.changes = [] ∧ watched.engine.record = r₀

/-- The schedule of a controller over a store, with stop requests to come. -/
def watching (s : Store) (prompts : List Bool) (now : Instant) : Schedule interface Watched :=
  { engine := { machine := ⟨s, prompts⟩ }, now := now }

/-- **A controller never moves the schema the wrong way**: from every store, at every moment of
every run and after every finale, whatever its contexts are and whenever stops are requested. -/
theorem keeps_right_way (s : Store) (prompts : List Bool) (now : Instant) (w : Moment)
    (isBenign : String → Bool) (c : Finale) :
    RightWay s.recorded (c.jobs w)
      ((({ engine := ⟨s, prompts⟩, now := now } : Schedule interface (Prompted Store)).upTo
        Memory.engine
        w).finale Memory.engine isBenign c)
      (((watching s prompts now).upTo Memory.engine w).finale Memory.engine isBenign c) := by
  have hstart : Ready chronicling (fun c (m : Watched) => m.chronicle = c) (Goes (c.jobs w))
      ⟨s.version, s.dirty, []⟩ [] (watching s prompts now) := .start _ now rfl
  have hmeets : ∀ k (errand : Errand), w.errands[k]? = some errand →
      Meets chronicling (Goes (c.jobs w)) (errand.body Memory.engine k) := by
    intro k errand hk
    exact meets_errand (c.jobs_at hk)
  obtain ⟨bodies, hlength, hready⟩ := hstart.upTo chronicling_governs w hmeets
  obtain ⟨issued, hissued, horderly⟩ :=
    hready.finale chronicling_governs isBenign announceClose_unseen
    (meets_close isBenign _) w c hlength
  have hcourse := horderly.onCourse rfl (Nat.le_of_eq hissued)
  refine ⟨?_, horderly.serials, hcourse, ?_, hcourse.neverLowered, hcourse.neverRaised,
    hcourse.untouched⟩
  · rw [← finale_map Memory.unwatched, ← upTo_map Memory.unwatched]
    rfl
  · exact (hcourse.walk fun _ _ _ _ _ => trivial).last_eq

/-- An apply whose caller has left is in the middle of its second step. -/
example : ((watching { stepDelay := 10 } [] 0).upTo Memory.engine
    { returned := [{ kind := .apply, desired := 3, expiry := some 5 }],
      since := some 12 }).engine.changes =
      [⟨1, true⟩, ⟨1, false⟩, ⟨2, true⟩] := by decide +kernel

end Schedule

end Stairway
