import Stairway.Proofs.Postgres.Discipline
import Stairway.Proofs.Program.Transcript

/-!
# What is asked beside the lock

Whatever runs between taking the lock and giving it back has nothing to do with locks itself:
reading and writing the version, running a script, taking the steps of a plan
(`aside_migrateLocked`). `Work.Asks` says of work that it asks only certain requests and comes to an
end, and work is `Aside` if these are asides. Of the parts that only send statements it is said for
any requests among which theirs are.

How a statement ends is told apart in two ways (`Sent`): it has been answered, or it was never sent
because the rollback that went before it was refused.
-/

namespace Stairway

namespace Postgres

open Program (hearing ending obeys_andThen)

/-- Whether a request has nothing to do with a lock. -/
def Request.IsAside : Request → Prop
  | .statement (.tryLock _) | .statement (.unlock _) | .lockTimeout | .setLockTimeout _ => False
  | _ => True

/-- Whether an exchange has nothing to do with a lock. -/
def Asides (asked : List (Exchange interface)) : Prop := ∀ e ∈ asked, e.request.IsAside

theorem Asides.cons {e : Exchange interface} {more : List (Exchange interface)}
    (h : e.request.IsAside) (h' : Asides more) : Asides (e :: more) :=
  List.forall_mem_cons.2 ⟨h, h'⟩

theorem asides_nil : Asides [] := List.forall_mem_nil _

/-! ## Statements -/

section Sending

variable {s : List (Exchange interface)}

/-- How a statement ends. -/
inductive Sent (q : Statement) (s : List (Exchange interface)) :
    Outcome (Except DatabaseError q.Reply) → List (Exchange interface) → Prop
  /-- It has been answered. -/
  | answered {before : List (Exchange interface)} (aside : Asides before) (sent : Instant)
      (a : Except ConnectionError q.Reply) (answered : Instant) :
      Sent q s (.finished (a.mapError .connection))
        (s ++ before ++ [⟨.statement q, sent, a, answered⟩])
  /-- A rollback was owed and has been refused. -/
  | stranded {before : List (Exchange interface)} (aside : Asides before) (sent : Instant)
      (e : ConnectionError) (answered : Instant) :
      Sent q s (.finished (.error (.connection e)))
        (s ++ before ++ [⟨.statement .rollback, sent, .error e, answered⟩])

theorem hearing_send {ok : Request → Prop} {q : Statement} (hpay : ok .takeOwedRollback)
    (hrollback : ok (.statement .rollback)) (hq : ok (.statement q)) :
    (send q).run.Obeys (hearing ok) (Sent q s) s := by
  have haside : Request.IsAside .takeOwedRollback := trivial
  refine ⟨hpay, ?_⟩
  rintro (_ | _) _ ⟨sent, paid, rfl⟩
  · refine ⟨hq, ?_⟩
    rintro a _ ⟨sent', answered, rfl⟩
    exact .answered (Asides.cons haside asides_nil) sent' a answered
  · refine ⟨hrollback, ?_⟩
    rintro (e | _) _ ⟨sent', answered, rfl⟩
    · exact .stranded (Asides.cons haside asides_nil) sent' e answered
    · refine ⟨hq, ?_⟩
      rintro a _ ⟨sent'', answered', rfl⟩
      have hpaid :=
        Asides.cons (e := ⟨.statement .rollback, sent', .ok (), answered⟩) trivial asides_nil
      rw [List.append_assoc s]
      exact .answered (Asides.cons haside hpaid) sent'' a answered'

end Sending

/-! ## Work that asks nothing else -/

/-- Work that asks only what is `ok` and comes to an end. -/
def Work.Asks (ok : Request → Prop) {α : Type} (w : Work α) : Prop :=
  ∀ s, w.run.Obeys (hearing ok) (ending (fun _ _ => True) (fun _ => True) fun _ => False) s

/-- Whether a request belongs to a statement that has nothing to do with a lock, or asks for the
connection. -/
def Request.IsPlain : Request → Prop
  | .statement (.tryLock _) | .statement (.unlock _) => False
  | .statement _ | .takeOwedRollback | .oweRollback | .isConnected => True
  | _ => False

section Asks

variable {α β : Type} {p : Plant} {ok : Request → Prop}

namespace Work.Asks

theorem mono {ok' : Request → Prop} {w : Work α} (hw : w.Asks ok) (h : ∀ r, ok r → ok' r) :
    w.Asks ok' :=
  fun s => (hw s).allowing h

theorem seq {w : Work α} {f : α → Work β} (hw : w.Asks ok) (hf : ∀ a, (f a).Asks ok) :
    (w >>= f).Asks ok :=
  fun s => obeys_andThen (hw s) fun a t _ => hf a t

theorem pure (a : α) : (Pure.pure a : Work α).Asks ok := fun _ => trivial

theorem throw (e : DatabaseError) : (throw e : Work α).Asks ok := fun _ => trivial

theorem attempt {w : Work α} (hw : w.Asks ok) : w.attempt.Asks ok := by
  intro s
  refine (obeys_attempt (hw s) (f := fun _ => True)).mono ?_
  rintro ((e | a) | _) t ht
  · exact trivial
  · exact trivial
  · exact ht

end Work.Asks

theorem asks_ask {r : Request} (hr : ok r) : (Work.ask r).Asks ok :=
  fun _ => ⟨hr, fun _ _ _ => trivial⟩

theorem asks_get {ε : Type} {wrap : ε → DatabaseError} {x : Except ε α} :
    (Work.get wrap x).Asks ok :=
  fun _ => obeys_get (fun _ _ => trivial) fun _ _ => trivial

theorem asks_send {q : Statement} (hpay : ok .takeOwedRollback)
    (hrollback : ok (.statement .rollback)) (hq : ok (.statement q)) : (send q).Asks ok := by
  intro s
  refine (hearing_send hpay hrollback hq).mono ?_
  rintro _ _ (⟨_, _, (e | a), _⟩ | ⟨_, _, _, _⟩) <;> exact trivial

theorem asks_release {key : Int} (hpay : ok .takeOwedRollback)
    (hrollback : ok (.statement .rollback)) (hunlock : ok (.statement (.unlock key)))
    (hlog : ∀ line, ok (.log line)) : (release key).Asks ok := by
  refine (asks_send hpay hrollback hunlock).seq fun hadIt => ?_
  cases hadIt
  · exact (asks_ask (hlog _)).seq fun _ => .pure _
  · exact .pure _

variable (hok : ∀ r, r.IsPlain → ok r)

include hok

theorem asks_plain {q : Statement} (hq : (Request.statement q).IsPlain) : (send q).Asks ok :=
  asks_send (hok .takeOwedRollback trivial) (hok (.statement .rollback) trivial)
    (hok (.statement q) hq)

theorem asks_readVersion : p.readVersion.Asks ok :=
  (asks_plain hok (by trivial)).seq fun _ => .pure _

theorem asks_writeVersion {version : Int} {dirty : Bool} :
    (p.writeVersion version dirty).Asks ok := by
  have hreplace : (p.replaceRow version dirty).Asks ok := by
    rw [replaceRow_eq]
    refine (asks_plain hok (by trivial)).seq fun _ => .seq ?_ fun _ => asks_plain hok (by trivial)
    split
    · exact asks_plain hok (by trivial)
    · exact .pure ()
  refine (asks_plain hok (by trivial)).seq fun _ => hreplace.attempt.seq ?_
  rintro (e | _)
  · exact (asks_ask (hok .oweRollback trivial)).seq fun _ => .throw e
  · exact .pure ()

theorem asks_runScript {text : String} : (p.runScript text).Asks ok := by
  unfold Plant.runScript
  split
  · exact .pure ()
  · exact asks_plain hok (by trivial)

theorem asks_requireConnection : Plant.requireConnection.Asks ok := by
  refine (asks_ask (hok .isConnected trivial)).seq fun connected => ?_
  cases connected
  · exact .throw _
  · exact .pure ()

end Asks

/-- Work comes to an end on any machine, and has asked only what is `ok`. -/
theorem Work.Asks.ends {σ α : Type} [Machine interface σ] {ok : Request → Prop} {w : Work α}
    (hw : w.Asks ok) (now : Instant) (m : σ) :
    (∀ e ∈ w.run.transcript now m, ok e.request) ∧
      ∃ r, (w.run.finish now m).outcome = .finished r := by
  obtain ⟨hasked, hend⟩ := (hw []).transcript now m
  refine ⟨hasked, ?_⟩
  revert hend
  generalize (w.run.finish now m).outcome = o
  rcases o with r | _ <;> intro hend
  · exact ⟨r, rfl⟩
  · exact hend.elim

/-! ## Work beside the lock -/

/-- Work that has nothing to do with locks and comes to an end. -/
abbrev Work.Aside {α : Type} (w : Work α) : Prop := w.Asks Request.IsAside

theorem Request.IsPlain.aside (r : Request) (h : r.IsPlain) : r.IsAside := by
  cases r with
  | statement q => cases q <;> first | exact h.elim | trivial
  | lockTimeout | setLockTimeout => exact h.elim
  | _ => trivial

section Aside

variable {p : Plant}

theorem aside_takeStep {t : Step} : (p.takeStep t).Aside := by
  have hread : (p.readScript t.direction t.version).Aside :=
    asks_get.seq fun _ => (asks_ask (by trivial)).seq fun _ => asks_get
  have hmark : ∀ {version dirty}, (p.writeVersion version dirty).Aside :=
    asks_writeVersion Request.IsPlain.aside
  exact hread.seq fun _ => hmark.seq fun _ => (asks_runScript Request.IsPlain.aside).seq fun _ =>
    hmark.seq fun _ => asks_ask (by trivial)

theorem aside_takeSteps (steps : List Step) : (p.takeSteps steps).Aside := by
  induction steps with
  | nil => exact .pure ()
  | cons t rest ih =>
    rw [takeSteps_cons]
    refine (asks_ask (by trivial)).seq fun stop => ?_
    split
    · exact (asks_ask (by trivial)).seq fun _ => .throw _
    · exact aside_takeStep.seq fun _ => ih

theorem aside_migrateLocked {version : Nat} : (p.migrateLocked version).Aside := by
  rw [migrateLocked_eq]
  refine (asks_readVersion Request.IsPlain.aside).seq fun current => ?_
  split
  · exact .throw _
  · exact asks_get.seq aside_takeSteps

end Aside

end Postgres

end Stairway
