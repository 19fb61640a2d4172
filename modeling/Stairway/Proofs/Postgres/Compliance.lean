import Stairway.Proofs.Postgres.Conduct
import Stairway.Proofs.Postgres.Discipline

/-!
# Calls keep to their protocol

The engine's programs are followed from the bottom up, and each is said to obey `conduct`: sending,
taking and giving back the lock, writing a version, a step, a plan, a call. A part that runs under
the lock starts from `Held` and is followed by what has become of the leg; a part that fails leaves
the session `Safe`, which is all that giving back the lock needs.

`Call.obeys` is the result: whatever the last call has left behind, the next one keeps to the
protocol, and if a migration succeeds then it has done all that it planned.
-/

namespace Stairway.Postgres

open Program (ending onSuccess obeys_andThen)

variable {p : Plant} {c : Call} {s t : Bearings} {α β : Type} {failed broken : Bearings → Prop}

/-! ## Between two statements -/

namespace Bearings

/-- What an owed rollback leaves. -/
def calm (s : Bearings) : Bearings := { s with toStanding := s.toStanding.calm }

/-- A transaction that is still open is to be rolled back, unless a rollback has been refused. -/
def Safe (s : Bearings) : Prop := s.lost = true ∨ s.toStanding.Settled

/-- The same of a session that has not been refused a rollback in the course of its call. -/
structure Sound (s : Bearings) : Prop where
  settled : s.blind = true ∨ s.toStanding.Settled
  wary : s.blind = true → s.lost = true

structure Held (s : Bearings) : Prop where
  inside : s.inside = true
  closed : s.blind = true ∨ s.draft = .closed
  paid : s.owesRollback = false
  wary : s.blind = true → s.lost = true

theorem Sound.safe (h : s.Sound) : s.Safe := h.settled.imp_left h.wary

theorem Sound.calm_closed (h : s.Sound) : s.calm.blind = true ∨ s.calm.draft = .closed :=
  h.settled.imp_right fun hsettled => hsettled.calm_closed

theorem Safe.calm_closed (h : s.Safe) : s.calm.lost = true ∨ s.calm.draft = .closed :=
  h.imp_right fun hsettled => hsettled.calm_closed

theorem safe_of_closed (h : s.lost = true ∨ s.draft = .closed) : s.Safe :=
  h.imp_right Standing.settled_of_closed

theorem Safe.calm (h : s.Safe) : s.calm.Safe := safe_of_closed h.calm_closed

theorem Sound.calm (h : s.Sound) : s.calm.Sound :=
  ⟨h.calm_closed.imp_right Standing.settled_of_closed, h.wary⟩

theorem Held.sound (h : s.Held) : s.Sound := ⟨h.closed.imp_right Standing.settled_of_closed, h.wary⟩

theorem Held.safe (h : s.Held) : s.Safe := h.sound.safe

theorem Held.calm (h : s.Held) : s.calm = s := by
  unfold Bearings.calm
  rw [Standing.calm_of_paid h.paid]

/-- A statement that is refused leaves no transaction behind that is not to be rolled back. -/
theorem Safe.refused (h : s.Safe) (q : Statement) (e : ConnectionError) :
    (s.calm.hear p c (.statement q) (.error e)).Safe := by
  refine safe_of_closed ?_
  cases h.calm_closed with
  | inl hlost => exact .inl (by simp [hear, hlost])
  | inr hclosed =>
    right
    cases q with
    | commit => rfl
    | _ => exact hclosed

end Bearings

open Bearings (Safe Sound Held)

/-! ## Asking -/

theorem heeds_request {r : Request} {Q : Outcome r.Answer → Bearings → Prop} (hr : s.Allows p c r)
    (h : ∀ a, s.Expects r a → Q (.finished a) (s.hear p c r a)) :
    (Program.request (I := interface) r).Obeys (conduct p c) Q s := by
  refine ⟨hr, ?_⟩
  intro a t ht
  obtain ⟨ha, rfl⟩ := ht
  exact h a ha

theorem heeds_ask {r : Request} {ok : r.Answer → Bearings → Prop} (hr : s.Allows p c r)
    (hok : ∀ a, s.Expects r a → ok a (s.hear p c r a)) :
    (Work.ask r).run.Obeys (conduct p c) (ending ok failed broken) s :=
  (Program.obeys_bind (p := Program.request (I := interface) r)).2 (heeds_request hr hok)

theorem heeds_log {line : String} {ok : Unit → Bearings → Prop} (hok : ok () s) :
    (Work.ask (.log line)).run.Obeys (conduct p c) (ending ok failed broken) s :=
  heeds_ask trivial fun _ _ => hok

/-- What is owed is paid, unless the rollback is refused. -/
theorem heeds_payDebt (hlost : ∀ t : Bearings, t.lost = true → failed t) :
    payDebt.run.Obeys (conduct p c) (ending (fun _ t => t = s.calm) failed broken) s := by
  refine obeys_andThen
    (R := fun owed t => owed = s.owesRollback ∧ t = { s with owesRollback := false })
    (heeds_ask trivial fun owed ha => ⟨ha, rfl⟩) ?_
  intro owed t ht
  obtain ⟨rfl, rfl⟩ := ht
  by_cases howed : s.owesRollback = true
  · rw [if_pos howed]
    refine obeys_andThen (R := fun (a : Except ConnectionError Unit) t => match a with
      | .ok _ => t = s.calm
      | .error _ => t.lost = true) (heeds_ask ⟨trivial, trivial⟩ ?_) ?_
    · intro a _
      cases a with
      | error e => rfl
      | ok _ => simp [Bearings.hear, Standing.hear, Standing.hearReply, Request.section,
          Request.strands, Leg.hear, Bearings.calm, Standing.calm, howed]
    · intro a t ht
      cases a with
      | error e => exact hlost t ht
      | ok _ => exact ht
  · have hpaid : s.owesRollback = false := by simpa using howed
    rw [if_neg howed, Bearings.calm, Standing.calm_of_paid hpaid, ← hpaid]
    exact rfl

/-- A statement is sent after the rollback that is owed. -/
theorem heeds_send {q : Statement} {ok : q.Reply → Bearings → Prop}
    (hq : s.calm.Allows p c (.statement q))
    (hok : ∀ reply, ok reply (s.calm.hear p c (.statement q) (.ok reply)))
    (hfailed : ∀ e, failed (s.calm.hear p c (.statement q) (.error e)))
    (hlost : ∀ t : Bearings, t.lost = true → failed t) :
    (send q).run.Obeys (conduct p c) (ending ok failed broken) s := by
  rw [send_eq]
  refine obeys_andThen (heeds_payDebt hlost) ?_
  intro _ t ht
  subst ht
  refine obeys_andThen (R := fun (a : Except ConnectionError q.Reply) t =>
    t = s.calm.hear p c (.statement q) a) (heeds_ask hq fun _ _ => rfl) ?_
  intro a t ht
  subst ht
  refine obeys_get ?_ ?_
  · intro reply ha
    subst ha
    exact hok reply
  · intro e ha
    subst ha
    exact hfailed e

/-- Sending leaves a session safe if the statement is refused. -/
theorem heeds_sendSafely {q : Statement} {ok : q.Reply → Bearings → Prop} (hs : s.Safe)
    (hq : s.calm.Allows p c (.statement q))
    (hok : ∀ reply, ok reply (s.calm.hear p c (.statement q) (.ok reply))) :
    (send q).run.Obeys (conduct p c) (onSuccess ok Safe) s :=
  heeds_send hq hok (hs.refused q) fun _ => .inl

/-! ## The lock -/

/-- Waiting for the lock leaves the leg where it is, and the lock opens the section. -/
theorem calling : Entrance (conduct p c) p.target.lockKey (fun t => t.Sound ∧ t.leg = .idle)
    (fun t => t.Held ∧ t.leg = .idle) Safe where
  tryLock := by
    intro t ht
    obtain ⟨hsound, hleg⟩ := ht
    refine heeds_sendSafely hsound.safe ⟨rfl, trivial⟩ ?_
    intro gotIt
    cases gotIt with
    | false => exact ⟨⟨hsound.calm.settled, hsound.wary⟩, hleg⟩
    | true =>
      refine ⟨⟨?_, hsound.calm_closed, t.toStanding.calm_paid, hsound.wary⟩, hleg⟩
      simp [Bearings.hear, Request.section]
  now ht := heeds_ask trivial fun _ _ => ht
  lockTimeout ht := heeds_ask trivial fun _ _ => ht
  giveUp ht := ht.1.safe

/-- The lock is given back from wherever a section has ended. -/
theorem heeds_release (hs : s.Safe) :
    (release p.target.lockKey).run.Obeys (conduct p c)
      (onSuccess (fun _ t => t.Safe ∧ t.leg = .left s.leg.hasArrived) Safe) s := by
  refine obeys_andThen (R := fun _ t => t.Safe ∧ t.leg = .left s.leg.hasArrived)
    (heeds_sendSafely hs ⟨rfl, trivial⟩ ?_) ?_
  · intro hadIt
    refine ⟨Bearings.safe_of_closed ?_, rfl⟩
    cases hadIt <;> exact hs.calm_closed
  · intro hadIt t ht
    cases hadIt with
    | true => exact ht
    | false => exact obeys_andThen (heeds_log ht) fun _ _ hu => hu

/-- **What a call does under the lock** begins with the section and ends with it. -/
theorem heeds_locked {body : Work α} {R : Leg → Prop} (hs : s.Sound) (hleg : s.leg = .idle)
    (hbody : ∀ t : Bearings, t.Held → t.leg = .idle →
      body.run.Obeys (conduct p c) (onSuccess (fun _ u => u.Safe ∧ R u.leg) Safe) t) :
    (locked p.target.lockKey body).run.Obeys (conduct p c)
      (onSuccess (fun _ u => u.Safe ∧ ∃ leg, R leg ∧ u.leg = .left leg.hasArrived) Safe) s := by
  refine calling.locked ⟨hs, hleg⟩ (R := fun _ u => u.Safe ∧ R u.leg) (L := Safe) ?_ ?_ ?_
  · intro t ht
    exact hbody t ht.1 ht.2
  · intro _ t ht
    exact (heeds_release ht.1).imp_ok fun _ u hu => ⟨hu.1, t.leg, ht.2, hu.2⟩
  · intro t ht
    exact (heeds_release ht).imp_ok fun _ _ hu => hu.1

/-! ## Writing a version -/

/-- Between the two ends of a transaction a failure leaves it open, for the caller to see to. -/
theorem heeds_replaceRow {version : Int} {dirty : Bool} (hs : s.Held)
    (hw : s.leg.Marks c (written version dirty)) :
    (p.replaceRow version dirty).run.Obeys (conduct p c)
      (ending (fun _ t => t.Held ∧ t.leg = s.leg.mark) (fun _ => True) fun _ => False)
      { s with draft := .blank } := by
  have hcalm : ∀ d, Bearings.calm { s with draft := d } = { s with draft := d } := by
    intro d
    simp [Bearings.calm, Standing.calm, hs.paid]
  have hsent : ∀ (d : Draft) (q : Statement) (d' : Draft),
      Bearings.Allows p c { s with draft := d } (.statement q) →
      (∀ reply, Bearings.hear p c { s with draft := d } (.statement q)
        (.ok reply) = { s with draft := d' }) →
      (send q).run.Obeys (conduct p c)
        (ending (fun _ t => t = { s with draft := d' }) (fun _ => True) fun _ => False)
        { s with draft := d } := by
    intro d q d' hq hreply
    refine heeds_send ?_ ?_ (fun _ => trivial) fun _ _ => trivial
    · rwa [hcalm]
    · rw [hcalm]
      exact hreply
  have hblank : Draft.blank ≠ .closed := by simp
  have hrow : ∀ row, Draft.row row ≠ .closed := by simp
  rw [replaceRow_eq]
  refine obeys_andThen (hsent .blank _ (.row none) ⟨⟨rfl, hblank⟩, hs.inside⟩ fun _ => rfl) ?_
  intro _ t ht
  subst ht
  refine obeys_andThen (R := fun _ t => t = { s with draft := .row (written version dirty) }) ?_ ?_
  · by_cases hhas : Plant.hasRow version dirty = true
    · rw [if_pos hhas, written, if_pos hhas]
      exact hsent (.row none) _ _ ⟨⟨rfl, hrow none⟩, hs.inside⟩ fun _ => rfl
    · rw [if_neg hhas, written, if_neg hhas]
      exact rfl
  · intro _ t ht
    subst ht
    refine heeds_send ?_ ?_ (fun _ => trivial) fun _ _ => trivial
    · rw [hcalm]
      exact ⟨⟨_, rfl⟩, hs.inside, _, rfl, hw⟩
    · rw [hcalm]
      intro _
      exact ⟨⟨hs.inside, .inr rfl, hs.paid, hs.wary⟩, rfl⟩

/-- A version is written as a whole or not at all, and what is left open is owed a rollback. -/
theorem heeds_writeVersion {version : Int} {dirty : Bool} (hs : s.Held)
    (hw : s.leg.Marks c (written version dirty)) :
    (p.writeVersion version dirty).run.Obeys (conduct p c)
      (onSuccess (fun _ t => t.Held ∧ t.leg = s.leg.mark) Safe) s := by
  have hbegin : (send .beginTransaction).run.Obeys (conduct p c)
      (onSuccess (fun _ t => t = { s with draft := .blank }) Safe) s := by
    refine heeds_sendSafely hs.safe ⟨trivial, trivial⟩ ?_
    rw [hs.calm]
    exact fun _ => rfl
  refine obeys_andThen hbegin ?_
  intro _ t ht
  subst ht
  refine obeys_andThen (obeys_attempt (heeds_replaceRow hs hw)).of_unbroken ?_
  intro result t ht
  cases result with
  | ok _ => exact ht
  | error e =>
    refine obeys_andThen (R := fun _ u => u.Safe) (heeds_ask trivial fun _ _ => ?_) fun _ _ hu => hu
    exact .inr fun _ => rfl

/-! ## Steps -/

theorem heeds_readScript {step : Step} {row : Option Row} {rest : List Step} (hs : s.Held)
    (hleg : s.leg = .steady row (step :: rest)) :
    (p.readScript step.direction step.version).run.Obeys (conduct p c)
      (onSuccess (fun text t => t.Held ∧ t.leg = .primed row step text rest) Safe) s := by
  refine obeys_andThen (R := fun _ t => s = t) (obeys_get (fun _ _ => rfl) fun _ _ => hs.safe) ?_
  intro script t ht
  subst ht
  refine obeys_andThen (R := fun (a : Except IoError String) t =>
    t = s.hear p c (.readScript step.direction step.version script.path) a)
      (heeds_ask ?_ fun _ _ => rfl) ?_
  · simp [Bearings.Allows, Leg.Reads, hleg, hs.inside]
  intro a t ht
  subst ht
  refine obeys_get ?_ ?_
  · intro text ha
    subst ha
    refine ⟨⟨hs.inside, hs.closed, hs.paid, hs.wary⟩, ?_⟩
    simp [Bearings.hear, Leg.hear, Leg.read, hleg]
  · intro e ha
    subst ha
    exact Bearings.safe_of_closed (hs.closed.imp_left hs.wary)

/-- A script is sent unless it is blank, and afterwards the second mark is due. -/
theorem heeds_runScript {base : Option Row} {step : Step} {text : String} {rest : List Step}
    (hs : s.Held) (hleg : s.leg = .begun base step text none rest) :
    (p.runScript text).run.Obeys (conduct p c) (onSuccess (fun _ t => t.Held ∧
      ∃ ran, t.leg = .begun base step text ran rest ∧
        (ran = some true ∨ ran = none ∧ Plant.isBlank text = true)) Safe) s := by
  unfold Plant.runScript
  split
  · next hblank => exact ⟨hs, none, hleg, .inr ⟨rfl, hblank⟩⟩
  · next hfull =>
    refine heeds_sendSafely hs.safe ?_ ?_
    · rw [hs.calm]
      exact ⟨trivial, hs.inside, by simp [Leg.Runs, hleg, hfull]⟩
    · rw [hs.calm]
      intro _
      refine ⟨⟨hs.inside, hs.closed, hs.paid, hs.wary⟩, some true, ?_, .inl rfl⟩
      simp [Bearings.hear, Leg.hear, Leg.ran, hleg, Except.isOk, Except.toBool]

/-- **A step goes from mark to script to mark.** -/
theorem heeds_takeStep {step : Step} {row : Option Row} {rest : List Step} (hs : s.Held)
    (hleg : s.leg = .steady row (step :: rest)) :
    (p.takeStep step).run.Obeys (conduct p c)
      (onSuccess (fun _ t => t.Held ∧ t.leg = .steady (step.mark false) rest) Safe) s := by
  refine obeys_andThen (heeds_readScript hs hleg) ?_
  intro text t ht
  obtain ⟨hheld, hprimed⟩ := ht
  refine obeys_andThen (heeds_writeVersion hheld ?_) ?_
  · rw [hprimed]
    exact rfl
  intro _ t ht
  obtain ⟨hheld, hbegun⟩ := ht
  rw [hprimed] at hbegun
  refine obeys_andThen (heeds_runScript hheld hbegun) ?_
  intro _ t ht
  obtain ⟨hheld, ran, hran, hdue⟩ := ht
  refine obeys_andThen (heeds_writeVersion hheld ?_) ?_
  · rw [hran]
    exact ⟨rfl, hdue⟩
  intro _ t ht
  obtain ⟨hheld, hdone⟩ := ht
  rw [hran] at hdone
  exact heeds_log ⟨hheld, hdone⟩

theorem heeds_takeSteps {steps : List Step} {row : Option Row} (hs : s.Held)
    (hleg : s.leg = .steady row steps) :
    (p.takeSteps steps).run.Obeys (conduct p c)
      (onSuccess (fun _ t => t.Safe ∧ t.leg.hasArrived = true) Safe) s := by
  induction steps generalizing row s with
  | nil =>
    refine ⟨hs.safe, ?_⟩
    rw [hleg]
    rfl
  | cons step rest ih =>
    rw [takeSteps_cons]
    refine obeys_andThen (R := fun _ t => s = t) (heeds_ask trivial fun _ _ => rfl) ?_
    intro stop t ht
    subst ht
    split
    · exact obeys_andThen (heeds_log hs.safe) fun _ _ hu => hu
    · refine obeys_andThen (heeds_takeStep hs hleg) ?_
      intro _ t ht
      exact ih ht.1 ht.2

/-! ## Calls -/

theorem heeds_requireConnection {ok : Unit → Bearings → Prop} (hok : ok () s) (hfailed : failed s) :
    Plant.requireConnection.run.Obeys (conduct p c) (ending ok failed broken) s := by
  refine obeys_andThen (R := fun _ t => s = t) (heeds_ask trivial fun _ _ => rfl) ?_
  intro isConnected t ht
  subst ht
  cases isConnected with
  | false => exact hfailed
  | true => exact hok

theorem heeds_readVersion (hs : s.Sound) :
    p.readVersion.run.Obeys (conduct p c) (onSuccess (fun current t => ∃ row,
      current = Plant.ofRow row ∧ t = s.calm.hear p c (.statement (.selectRow p.table))
        (.ok row)) Safe) s := by
  refine obeys_andThen
    (R := fun row t => t = s.calm.hear p c (.statement (.selectRow p.table)) (.ok row))
    (heeds_sendSafely hs.safe ⟨trivial, rfl, hs.calm_closed⟩ fun _ => rfl) ?_
  intro row t ht
  exact ⟨row, rfl, ht⟩

/-- **What is planned under the lock** is done from there, all of it if nothing fails. -/
theorem heeds_migrateLocked {target : Nat} (hs : s.Held) (hleg : s.leg = .idle) :
    (p.migrateLocked target).run.Obeys (conduct p (.migrateTo target))
      (onSuccess (fun _ t => t.Safe ∧ t.leg.hasArrived = true) Safe) s := by
  rw [migrateLocked_eq]
  refine obeys_andThen (heeds_readVersion hs.sound) ?_
  intro current t ht
  obtain ⟨row, rfl, rfl⟩ := ht
  rw [hs.calm]
  generalize ht : s.hear p (.migrateTo target) (.statement (.selectRow p.table)) (.ok row) = t
  have hheld : t.Held := by
    subst ht
    exact ⟨hs.inside, hs.closed, hs.paid, hs.wary⟩
  split
  · exact hheld.safe
  next hclean =>
  refine obeys_andThen (R := fun steps u =>
    p.source.plan ((Plant.ofRow row).map (·.version)) target = .ok steps ∧ t = u)
    (obeys_get (fun steps hsteps => ⟨hsteps, rfl⟩) fun _ _ => hheld.safe) ?_
  intro steps u hu
  obtain ⟨hplan, rfl⟩ := hu
  have hnot : isDirty row = false := by
    unfold isDirty schemaOf
    cases hrow : Plant.ofRow row with
    | none => rfl
    | some v => simpa [hrow] using hclean
  have hsteady : t.leg = .steady row steps := by
    subst ht
    simp [Bearings.hear, Leg.hear, Leg.look, hleg, hs.inside, Call.plan?, hnot, hplan,
      Except.toOption]
  exact heeds_takeSteps hheld hsteady

theorem heeds_migrateTo {target : Nat} (hs : s.Sound) (hleg : s.leg = .idle) :
    (p.migrateTo target).run.Obeys (conduct p (.migrateTo target))
      (onSuccess (fun _ t => t.Safe ∧ t.leg = .left true) Safe) s := by
  refine obeys_andThen (R := fun _ t => s = t) (heeds_requireConnection rfl hs.safe) ?_
  intro _ t ht
  subst ht
  refine (heeds_locked (R := fun leg => leg.hasArrived = true) hs hleg
    fun _ => heeds_migrateLocked).imp_ok ?_
  intro _ u hu
  obtain ⟨hsafe, leg, harrived, hleft⟩ := hu
  exact ⟨hsafe, by rw [hleft, harrived]⟩

theorem heeds_force {version : Int} (hs : s.Sound) (hleg : s.leg = .idle) :
    (p.force version).run.Obeys (conduct p (.force version))
      (onSuccess (fun _ t => t.Safe) Safe) s := by
  unfold Plant.force
  split
  · exact hs.safe
  refine obeys_andThen (R := fun _ t => s = t) (heeds_requireConnection rfl hs.safe) ?_
  intro _ t ht
  subst ht
  refine obeys_andThen (heeds_locked (R := fun _ => True) hs hleg ?_) fun _ t ht => heeds_log ht.1
  intro t hheld hidle
  refine (heeds_writeVersion hheld ?_).imp_ok fun _ u hu => ⟨hu.1.safe, trivial⟩
  rw [hidle]
  exact ⟨version, rfl, rfl⟩

theorem heeds_version (hs : s.Sound) :
    p.version.run.Obeys (conduct p .version) (onSuccess (fun _ t => t.Safe) Safe) s := by
  refine obeys_andThen (R := fun _ t => s = t) (heeds_requireConnection rfl hs.safe) ?_
  intro _ t ht
  subst ht
  refine (heeds_readVersion hs).imp_ok ?_
  intro _ t ht
  obtain ⟨row, -, rfl⟩ := ht
  exact hs.safe.calm

/-- A table is made under the lock that its own address names, whatever plant the session is for. -/
theorem heeds_ensureTable {q : Plant} (hkey : q.target.lockKey = p.target.lockKey) (hs : s.Sound)
    (hleg : s.leg = .idle) :
    q.ensureTable.run.Obeys (conduct p c) (onSuccess (fun _ t => t.Safe) Safe) s := by
  refine obeys_andThen (R := fun _ t => s = t) (heeds_requireConnection rfl hs.safe) ?_
  intro _ t ht
  subst ht
  rw [hkey]
  refine (heeds_locked (R := fun _ => True) hs hleg ?_).imp_ok fun _ _ hu => hu.1
  intro t hheld hidle
  refine heeds_sendSafely hheld.safe ?_ ?_
  · rw [hheld.calm]
    exact ⟨trivial, hheld.inside⟩
  · rw [hheld.calm]
    exact fun _ => ⟨hheld.safe, trivial⟩

/-- **Opening** asks for the connection before anything is owed, and makes the table under
the lock. -/
theorem heeds_openPlant {sourceUrl databaseUrl : String}
    (hsuits : (Call.establish sourceUrl databaseUrl).Suits p) (hs : s.Sound) (hleg : s.leg = .idle)
    (hpaid : s.owesRollback = false) :
    (openPlant sourceUrl databaseUrl).run.Obeys (conduct p c)
      (onSuccess (fun _ t => t.Safe) Safe) s := by
  unfold openPlant
  refine obeys_andThen (R := fun _ t => s = t) (heeds_ask trivial fun _ _ => rfl) ?_
  intro opened t ht
  subst ht
  refine obeys_andThen (R := fun _ t => s = t) (obeys_get (fun _ _ => rfl) fun _ _ => hs.safe) ?_
  intro source t ht
  subst ht
  refine obeys_andThen (R := fun target t => Target.parse databaseUrl = .ok target ∧ s = t)
    (obeys_get (fun target htarget => ⟨htarget, rfl⟩) fun _ _ => hs.safe) ?_
  intro target t ht
  obtain ⟨htarget, rfl⟩ := ht
  refine obeys_andThen (R := fun _ t => s = t) (obeys_get (fun _ _ => rfl) fun _ _ => hs.safe) ?_
  intro options t ht
  subst ht
  refine obeys_andThen (R := fun _ t => s = t) (heeds_ask hpaid fun _ _ => rfl) ?_
  intro answer t ht
  subst ht
  refine obeys_andThen (R := fun _ t => s = t) (obeys_get (fun _ _ => rfl) fun _ _ => hs.safe) ?_
  intro _ t ht
  subst ht
  exact obeys_andThen (heeds_ensureTable (q := ⟨source, target⟩) (hsuits target htarget) hs hleg)
    fun _ _ hu => hu

/-- What holds when a call is over: if a migration succeeds, it has done all that it planned. -/
def Call.Closes (c : Call) (o : Outcome (Except EngineError Unit)) (s : Bearings) : Prop :=
  s.Safe ∧ ((∃ target, c = .migrateTo target) → o = .finished (.ok ()) → s.leg = .left true)

theorem closes_of_safe {w : Program interface (Except EngineError Unit)}
    (hc : ∀ target, c ≠ .migrateTo target)
    (h : w.Obeys (conduct p c) (onSuccess (fun _ t => t.Safe) Safe) s) :
    w.Obeys (conduct p c) c.Closes s := by
  refine (Program.obeys_onSuccess.1 h).mono fun _ _ hsafe => ⟨hsafe, ?_⟩
  intro hmigrates
  obtain ⟨target, rfl⟩ := hmigrates
  exact absurd rfl (hc target)

/-- **A session keeps to the protocol** in whatever call its owner has it make next. -/
theorem Call.obeys (c : Call) (hsuits : c.Suits p) (hs : s.Safe)
    (hpaid : c.isOpening = true → s.owesRollback = false) :
    (c.program p).Obeys (conduct p c) c.Closes s.fresh := by
  have hfresh : s.fresh.Sound := ⟨hs, id⟩
  have hforget : ∀ {α : Type} {w : Program interface (Except EngineError α)},
      w.Obeys (conduct p c) (onSuccess (fun _ t => t.Safe) Safe) s.fresh →
        (w.bind fun r => .done (r.map fun _ => ())).Obeys (conduct p c)
          (onSuccess (fun _ t => t.Safe) Safe) s.fresh := by
    intro α w h
    refine (Program.obeys_bind (p := w)).2 (h.mono ?_)
    rintro ((e | a) | _) t ht <;> exact ht
  cases c with
  | establish sourceUrl databaseUrl =>
    exact closes_of_safe nofun
      (hforget (obeys_inEngineWords (heeds_openPlant hsuits hfresh rfl (hpaid rfl))))
  | version => exact closes_of_safe nofun (hforget (obeys_inEngineWords (heeds_version hfresh)))
  | migrateTo target =>
    refine (obeys_inEngineWords (heeds_migrateTo hfresh rfl)).mono ?_
    rintro ((e | _) | _) t ht
    · exact ⟨ht, nofun⟩
    · exact ⟨ht.1, fun _ _ => ht.2⟩
    · exact ⟨ht, nofun⟩
  | force version => exact closes_of_safe nofun (obeys_inEngineWords (heeds_force hfresh rfl))

end Stairway.Postgres
