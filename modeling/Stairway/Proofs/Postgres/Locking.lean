import Stairway.Proofs.Postgres.Asking
import Stairway.Proofs.Postgres.Standing

/-!
# Asking, and asking under the lock

What the lowest programs of the engine do to what a session knows. A statement is sent after the
rollback that is owed (`obeys_send`), and what is done under the lock starts with the lock held and
no transaction under way (`obeys_locked`). Between two programs of the engine only `Settled` is
promised: a transaction that is still open is to be rolled back.
-/

namespace Stairway.Postgres

open Program (ending onSuccess obeys_andThen)

/-! ## What a session knows -/

namespace Standing

/-- A transaction that is still open is to be rolled back. -/
def Settled (s : Standing) : Prop := s.draft ≠ .closed → s.owesRollback = true

/-- The lock is held and no transaction is under way. -/
structure Held (s : Standing) : Prop where
  locked : 0 < s.locks
  closed : s.draft = .closed
  paid : s.owesRollback = false

/-- What an owed rollback leaves. -/
def calm (s : Standing) : Standing :=
  if s.owesRollback then { s with owesRollback := false, draft := .closed } else s

variable {s : Standing}

theorem calm_of_paid (h : s.owesRollback = false) : s.calm = s := by
  simp [calm, h]

@[simp] theorem calm_reads (s : Standing) : s.calm.reads = s.reads := by
  unfold calm
  split <;> rfl

@[simp] theorem calm_hasWritten (s : Standing) : s.calm.hasWritten = s.hasWritten := by
  unfold calm
  split <;> rfl

@[simp] theorem calm_paid (s : Standing) : s.calm.owesRollback = false := by
  unfold calm
  split
  · rfl
  · next h => simpa using h

theorem Settled.calm_closed (h : s.Settled) : s.calm.draft = .closed := by
  unfold calm
  split
  · rfl
  · next hpaid => exact Decidable.byContradiction fun hopen => hpaid (h hopen)

theorem settled_of_closed (h : s.draft = .closed) : s.Settled := fun hopen => absurd h hopen

theorem Held.settled (h : s.Held) : s.Settled := settled_of_closed h.closed

theorem Held.calm (h : s.Held) : s.calm = s := calm_of_paid h.paid

end Standing

open Standing (Settled Held)

/-! ## Asking -/

section Asking

variable {p : Plant} {kind : Transition} {desired : Nat} {s : Standing} {α β : Type}
  {failed broken : Standing → Prop}

theorem obeys_request {r : Request} {Q : Outcome r.Answer → Standing → Prop}
    (hr : s.Allows p kind desired r) (h : ∀ a, s.Expects r a → Q (.finished a) (s.hear r a)) :
    (Program.request (I := interface) r).Obeys (etiquette p kind desired) Q s := by
  refine ⟨hr, ?_⟩
  rintro a _ ⟨ha, rfl⟩
  exact h a ha

theorem obeys_ask {r : Request} {ok : r.Answer → Standing → Prop} (hr : s.Allows p kind desired r)
    (hok : ∀ a, s.Expects r a → ok a (s.hear r a)) :
    (Work.ask r).run.Obeys (etiquette p kind desired) (ending ok failed broken) s :=
  (Program.obeys_bind (p := Program.request (I := interface) r)).2 (obeys_request hr hok)

/-- A line of the log changes nothing. -/
theorem obeys_log {line : String} {ok : Unit → Standing → Prop} (hok : ok () s) :
    (Work.ask (.log line)).run.Obeys (etiquette p kind desired) (ending ok failed broken) s :=
  obeys_ask trivial fun _ _ => hok

/-- What is owed is paid, and a rollback is not refused. -/
theorem obeys_payDebt : payDebt.run.Obeys (etiquette p kind desired)
    (ending (fun _ t => t = s.calm) failed broken) s := by
  refine obeys_andThen (R := fun owed t => owed = s.owesRollback ∧
    t = { s with owesRollback := false }) (obeys_ask trivial fun a ha => ⟨ha, rfl⟩) ?_
  rintro owed _ ⟨rfl, rfl⟩
  by_cases howed : s.owesRollback = true
  · rw [if_pos howed]
    refine obeys_andThen (R := fun a t => a = .ok () ∧ t = s.calm) (obeys_ask trivial ?_) ?_
    · rintro a rfl
      exact ⟨rfl, by simp [Standing.hear, Standing.hearReply, Standing.calm, howed]⟩
    · rintro _ t ⟨rfl, rfl⟩
      exact obeys_get (fun _ _ => rfl) (by rintro e ⟨⟩)
  · have hpaid : s.owesRollback = false := by simpa using howed
    rw [if_neg howed, Standing.calm_of_paid hpaid, ← hpaid]
    exact rfl

/-- A statement is sent after the rollback that is owed. -/
theorem obeys_send {q : Statement} {ok : q.Reply → Standing → Prop}
    (hq : s.calm.AllowsStatement p kind desired q)
    (hok : ∀ reply, ok reply (s.calm.hearReply q reply))
    (hfailed : ∀ e, failed (s.calm.hear (.statement q) (.error e))) :
    (send q).run.Obeys (etiquette p kind desired) (ending ok failed broken) s := by
  rw [send_eq]
  refine obeys_andThen obeys_payDebt ?_
  rintro _ _ rfl
  refine obeys_andThen
    (R := fun (a : Except ConnectionError q.Reply) t => t = s.calm.hear (.statement q) a) ?_ ?_
  · exact obeys_ask hq fun _ _ => rfl
  · rintro a t rfl
    refine obeys_get ?_ ?_
    · rintro reply rfl
      exact hok reply
    · rintro e rfl
      exact hfailed e

end Asking

/-! ## The lock -/

section Lock

variable {p : Plant} {kind : Transition} {desired : Nat} {s : Standing} {α : Type}

/-- A try in vain leaves a session that waits as it is, but that its debts are paid. -/
theorem entrance : Entrance (etiquette p kind desired) p.target.lockKey
    (fun t => t.Settled ∧ t.calm = s.calm) (fun t => t = { s.calm with locks := s.calm.locks + 1 })
    Settled where
  tryLock := by
    rintro t ⟨ht, hcalm⟩
    have hsettled : t.calm.Settled := Standing.settled_of_closed ht.calm_closed
    refine obeys_send rfl ?_ fun _ => hsettled
    rintro (_ | _)
    · exact ⟨hsettled, (Standing.calm_of_paid t.calm_paid).trans hcalm⟩
    · simp only [if_true, Standing.hearReply, hcalm]
  now ht := obeys_ask trivial fun _ _ => ht
  lockTimeout ht := obeys_ask trivial fun _ _ => ht
  giveUp ht := ht.1

theorem obeys_release (hs : s.Settled) :
    (release p.target.lockKey).run.Obeys (etiquette p kind desired)
      (onSuccess (fun _ t => t.Settled ∧ t.reads = s.reads) Settled) s := by
  have hcalm : s.calm.Settled := Standing.settled_of_closed hs.calm_closed
  refine obeys_andThen (R := fun _ t => t.Settled ∧ t.reads = s.reads)
    (obeys_send rfl ?_ fun _ => hcalm) ?_
  · rintro (_ | _)
    · exact ⟨hcalm, s.calm_reads⟩
    · exact ⟨hcalm, s.calm_reads⟩
  · rintro (_ | _) t ht
    · exact obeys_andThen (obeys_log ht) fun _ _ hu => hu
    · exact ht

/-- **What is done under the lock** begins with the lock held and must leave no transaction behind
that is not owed a rollback. -/
theorem obeys_locked {body : Work α} {R : List (Option Row) → Prop} (hs : s.Settled)
    (hbody : ∀ t, t.Held → t.reads = s.reads → t.hasWritten = s.hasWritten →
      body.run.Obeys (etiquette p kind desired)
        (onSuccess (fun _ u => u.Settled ∧ R u.reads) Settled) t) :
    (locked p.target.lockKey body).run.Obeys (etiquette p kind desired)
      (onSuccess (fun _ u => u.Settled ∧ R u.reads) Settled) s := by
  have hheld : Held { s.calm with locks := s.calm.locks + 1 } :=
    ⟨Nat.succ_pos _, hs.calm_closed, s.calm_paid⟩
  refine (entrance (s := s)).locked ⟨hs, rfl⟩ (R := fun _ u => u.Settled ∧ R u.reads) (L := Settled)
    ?_ ?_ ?_
  · rintro _ rfl
    exact hbody _ hheld s.calm_reads s.calm_hasWritten
  · rintro _ t ⟨ht, hreads⟩
    exact (obeys_release ht).imp_ok fun _ u hu => ⟨hu.1, hu.2 ▸ hreads⟩
  · exact fun ht => (obeys_release ht).imp_ok fun _ _ hu => hu.1

end Lock

end Stairway.Postgres
