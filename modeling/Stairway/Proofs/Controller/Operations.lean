import Stairway.Controller.Transition
import Stairway.Proofs.Program.Protocol

/-!
# The phases of an operation

An operation reads the recorded version, perhaps repairs it, perhaps migrates, and puts the lock
timeout back at the end. `Engine.Phases` names what is known between these steps and what the
engine's own programs do to it: `start` before the version has been read, `read c` after it was read
as `c`, `repaired c` after it was marked clean, and `ended` wherever the operation may end. `force`
and `migrateTo` are looked at only where an operation of the kind calls them, so the conditions
under which it does are part of their fields.

From the phases it follows that the operation as a whole obeys the protocol (`Phases.operation`).
-/

namespace Stairway

open Program (onSuccess)

variable {I : Interface} {S : Type} {P : Protocol I S}

/-! ## Programs of a controller -/

theorem Attempt.obeys_ofEngine {α : Type} {p : Program I (Except EngineError α)} {s : S}
    {ok : α → S → Prop} {ended : S → Prop} (h : p.Obeys P (onSuccess ok ended) s) :
    (Attempt.ofEngine p).run.Obeys P (onSuccess ok ended) s := by
  refine (Program.obeys_bind (p := p)).2 (h.mono ?_)
  rintro ((err | a) | _) t ht <;> exact ht

namespace Engine

/-! ## The three operations, step by step -/

variable (e : Engine I)

theorem assertVersion_eq (desired : Nat) :
    e.assertVersion desired = e.current >>= fun c =>
      if c.dirty then throw (.dirty c.version)
      else if desired < c.version then throw (.behind desired c.version)
      else if c.version < desired then throw (.ahead desired c.version)
      else e.info ("Desired schema version " ++ toString desired ++ " asserted") := rfl

theorem applyVersion_eq (desired : Nat) :
    e.applyVersion desired = e.current >>= fun c =>
      if c.dirty then throw (.dirty c.version)
      else if c.version = desired then e.info "No migrations to apply"
      else if desired < c.version then throw (.behind desired c.version)
      else (do
        e.info (toString (desired - c.version) ++ " migrations to be applied")
        Attempt.ofEngine (e.migrateTo desired)
        e.info "Applied all migrations successfully") := rfl

theorem repair_eq (version : Nat) :
    e.repair version = (do
      e.info ("Current schema version " ++ toString version ++ " is dirty, ignoring")
      if largestForced < version then throw (.cannotForce version)
      else Attempt.ofEngine (e.force version)) := rfl

/-- The second half of a rollback, from a version that is not dirty, or no longer. -/
def lower (desired version : Nat) : Attempt I Unit :=
  if version = desired then e.info "No migrations to rollback"
  else if version < desired then throw (.ahead desired version)
  else do
    e.info (toString (version - desired) ++ " migrations to be rolled back")
    Attempt.ofEngine (e.migrateTo desired)
    e.info "Rolled back all migrations successfully"

theorem rollbackVersion_eq (desired : Nat) :
    e.rollbackVersion desired = e.current >>= fun c =>
      (if c.dirty then e.repair c.version else pure ()) >>= fun _ => e.lower desired c.version := by
  unfold rollbackVersion
  congr
  funext c
  by_cases hdirty : c.dirty = true
  · simp only [hdirty, if_true]
    rfl
  · simp only [hdirty]
    rfl

/-! ## Phases -/

/-- What is known of an operation of one kind from phase to phase, and how the engine leads from
each to the next. -/
structure Phases (P : Protocol I S) (e : Engine I) (kind : Transition) (desired : Nat)
    (start : S → Prop) (read repaired : SchemaVersion → S → Prop) (ended : S → Prop) : Prop where
  read_ended : ∀ c s, read c s → ended s
  repaired_ended : ∀ c s, repaired c s → ended s
  log_read : ∀ line c s, read c s → (e.log line).Obeys P (fun _ t => read c t) s
  log_repaired : ∀ line c s, repaired c s → (e.log line).Obeys P (fun _ t => repaired c t) s
  log_ended : ∀ line s, ended s → (e.log line).Obeys P (fun _ t => ended t) s
  version : ∀ s, start s →
    e.version.Obeys P (onSuccess (fun v t => read (v.getD ⟨0, false⟩) t) ended) s
  force : kind = .rollback → ∀ c s, read c s → c.dirty = true → c.version ≤ largestForced →
    (e.force c.version).Obeys P (onSuccess (fun _ t => repaired c t) ended) s
  migrateUp : kind = .apply → ∀ c s, read c s → c.dirty = false → c.version < desired →
    (e.migrateTo desired).Obeys P (fun _ t => ended t) s
  migrateDown : kind = .rollback → ∀ c s, (if c.dirty then repaired c s else read c s) →
    desired < c.version → (e.migrateTo desired).Obeys P (fun _ t => ended t) s
  setLockTimeout : ∀ d s, start s →
    (e.setLockTimeout d).Obeys P
    (fun o t => match o with | .finished _ => start t | .crashed => ended t) s
  restore : ∀ s, ended s → e.restoreLockTimeout.Obeys P (fun _ t => ended t) s

namespace Phases

variable {e} {kind : Transition} {desired : Nat} {start ended : S → Prop}
  {read repaired : SchemaVersion → S → Prop} {s : S}

/-- What every call of the engine keeps is known in every phase. -/
theorem of_keeps {R : S → Prop} (log : ∀ line s, R s → (e.log line).Obeys P (fun _ t => R t) s)
    (version : ∀ s, R s → e.version.Obeys P (fun _ t => R t) s)
    (force : ∀ v s, R s → (e.force v).Obeys P (fun _ t => R t) s)
    (migrateTo : ∀ v s, R s → (e.migrateTo v).Obeys P (fun _ t => R t) s)
    (setLockTimeout : ∀ d s, R s → (e.setLockTimeout d).Obeys P (fun _ t => R t) s)
    (defaultLockTimeout : ∀ s, R s → e.defaultLockTimeout.Obeys P (fun _ t => R t) s) :
    Phases P e kind desired R (fun _ => R) (fun _ => R) R where
  read_ended _ _ hs := hs
  repaired_ended _ _ hs := hs
  log_read line _ s hs := log line s hs
  log_repaired line _ s hs := log line s hs
  log_ended := log
  version s hs := Program.obeys_onSuccess.2 (version s hs)
  force _ c s hs _ _ := Program.obeys_onSuccess.2 (force c.version s hs)
  migrateUp _ _ s hs _ _ := migrateTo desired s hs
  migrateDown _ _ s hs _ := migrateTo desired s (by simpa using hs)
  setLockTimeout d s hs := (setLockTimeout d s hs).mono (by rintro (_ | _) t ht <;> exact ht)
  restore s hs := by
    refine Program.obeys_bind.2 ((defaultLockTimeout s hs).mono ?_)
    rintro (d | _) t ht
    · exact setLockTimeout d t ht
    · exact ht

/-- A line of the log, in a phase that the log does not end. -/
theorem info {phase ended : S → Prop} {line : String} (hended : ∀ t, phase t → ended t)
    (h : (e.log line).Obeys P (fun _ t => phase t) s) :
    (e.info line).run.Obeys P (onSuccess (fun _ t => phase t) ended) s := by
  refine (Program.obeys_bind (p := e.log line)).2 (h.mono ?_)
  rintro (_ | _) t ht
  · exact ht
  · exact hended t ht

theorem current (h : Phases P e kind desired start read repaired ended) (hs : start s) :
    e.current.run.Obeys P (onSuccess read ended) s := by
  refine Program.obeys_andThen (Attempt.obeys_ofEngine (h.version s hs)) ?_
  intro v t ht
  exact ht

/-- The last line of the log. -/
theorem lastLine (h : Phases P e kind desired start read repaired ended) (line : String)
    (hs : ended s) :
    (e.info line).run.Obeys P (onSuccess (fun _ t => ended t) ended) s :=
  info (fun _ => id) (h.log_ended line s hs)

theorem assertVersion (h : Phases P e kind desired start read repaired ended) (hs : start s) :
    (e.assertVersion desired).run.Obeys P (onSuccess (fun _ t => ended t) ended) s := by
  rw [assertVersion_eq]
  refine Program.obeys_andThen (h.current hs) ?_
  intro c t hread
  have hended := h.read_ended c t hread
  split
  · exact hended
  · split
    · exact hended
    · split
      · exact hended
      · exact h.lastLine _ hended

/-- A migration that is announced, made and confirmed. -/
theorem migrate (h : Phases P e kind desired start read repaired ended) {phase : S → Prop}
    (announced confirmed : String) (hended : ∀ t, phase t → ended t)
    (hlog : (e.log announced).Obeys P (fun _ t => phase t) s)
    (hmove : ∀ t, phase t → (e.migrateTo desired).Obeys P (fun _ t => ended t) t) :
    (do
      e.info announced
      Attempt.ofEngine (e.migrateTo desired)
      e.info confirmed : Attempt I Unit).run.Obeys P (onSuccess (fun _ t => ended t) ended) s := by
  refine Program.obeys_andThen (info hended hlog) ?_
  intro _ t ht
  have hmoved : (e.migrateTo desired).Obeys P (onSuccess (fun _ t => ended t) ended) t :=
    Program.obeys_onSuccess.2 (hmove t ht)
  refine Program.obeys_andThen (Attempt.obeys_ofEngine hmoved) ?_
  intro _ u hu
  exact h.lastLine confirmed hu

theorem applyVersion (h : Phases P e .apply desired start read repaired ended) (hs : start s) :
    (e.applyVersion desired).run.Obeys P (onSuccess (fun _ t => ended t) ended) s := by
  rw [applyVersion_eq]
  refine Program.obeys_andThen (h.current hs) ?_
  intro c t hread
  have hended := h.read_ended c t hread
  split
  · exact hended
  · next hclean =>
    split
    · exact h.lastLine _ hended
    · next hne =>
      split
      · exact hended
      · next hge =>
        refine h.migrate _ _ (h.read_ended c) (h.log_read _ c t hread) ?_
        intro u hu
        exact h.migrateUp rfl c u hu (by simpa using hclean) (by omega)

theorem repair (h : Phases P e .rollback desired start read repaired ended) {c : SchemaVersion}
    (hread : read c s) (hdirty : c.dirty = true) :
    (e.repair c.version).run.Obeys P (onSuccess (fun _ t => repaired c t) ended) s := by
  rw [repair_eq]
  refine Program.obeys_andThen (info (h.read_ended c) (h.log_read _ c s hread)) ?_
  intro _ t hread
  split
  · exact h.read_ended c t hread
  · next hfits =>
    exact Attempt.obeys_ofEngine (h.force rfl c t hread hdirty (Nat.le_of_not_lt hfits))

/-- What is known once a dirty version has been repaired and a clean one left alone. -/
theorem cleaned_ended (h : Phases P e kind desired start read repaired ended) {c : SchemaVersion}
    (t : S) (hc : if c.dirty then repaired c t else read c t) : ended t := by
  split at hc
  · exact h.repaired_ended c t hc
  · exact h.read_ended c t hc

theorem log_cleaned (h : Phases P e kind desired start read repaired ended) (line : String)
    {c : SchemaVersion} (hc : if c.dirty then repaired c s else read c s) :
    (e.log line).Obeys P (fun _ t => if c.dirty then repaired c t else read c t) s := by
  by_cases hdirty : c.dirty = true
  · simp only [hdirty, if_true] at hc ⊢
    exact h.log_repaired line c s hc
  · simp only [hdirty] at hc ⊢
    exact h.log_read line c s hc

theorem lower (h : Phases P e .rollback desired start read repaired ended) {c : SchemaVersion}
    (hc : if c.dirty then repaired c s else read c s) :
    (e.lower desired c.version).run.Obeys P (onSuccess (fun _ t => ended t) ended) s := by
  unfold Engine.lower
  split
  · exact h.lastLine _ (h.cleaned_ended s hc)
  · next hne =>
    split
    · exact h.cleaned_ended s hc
    · next hge =>
      refine h.migrate _ _ h.cleaned_ended (h.log_cleaned _ hc) ?_
      intro u hu
      exact h.migrateDown rfl c u hu (by omega)

theorem rollbackVersion (h : Phases P e .rollback desired start read repaired ended)
    (hs : start s) :
    (e.rollbackVersion desired).run.Obeys P (onSuccess (fun _ t => ended t) ended) s := by
  rw [rollbackVersion_eq]
  refine Program.obeys_andThen (h.current hs) ?_
  intro c t hread
  by_cases hdirty : c.dirty = true
  · rw [if_pos hdirty]
    refine Program.obeys_andThen (h.repair hread hdirty) ?_
    intro _ u hu
    exact h.lower (by rwa [if_pos hdirty])
  · rw [if_neg hdirty]
    have hskip : (pure () : Attempt I Unit).run.Obeys P
        (onSuccess (fun _ u => read c u) ended) t := hread
    refine Program.obeys_andThen hskip ?_
    intro _ u hu
    exact h.lower (by rwa [if_neg hdirty])

theorem perform (h : Phases P e kind desired start read repaired ended) (hs : start s) :
    (e.perform kind desired).run.Obeys P (onSuccess (fun _ t => ended t) ended) s := by
  cases kind with
  | assert => exact h.assertVersion hs
  | apply => exact h.applyVersion hs
  | rollback => exact h.rollbackVersion hs

/-- **An operation goes through its phases**, whatever time its context leaves it. -/
theorem operation (h : Phases P e kind desired start read repaired ended)
    (remaining : Option Duration) (hs : start s) :
    (e.operation kind desired remaining).Obeys P (fun _ t => ended t) s := by
  have hbody : ∀ t, start t →
      (Program.ensuring (e.perform kind desired).run e.restoreLockTimeout).Obeys P
        (fun _ t => ended t) t := by
    intro t ht
    refine Program.obeys_ensuring.2 ((h.perform ht).mono ?_)
    rintro o u hu
    have hended : ended u := by
      rcases o with (err | a) | _ <;> exact hu
    refine (h.restore u hended).mono ?_
    rintro (_ | _) v hv <;> exact hv
  cases remaining with
  | none => exact hbody s hs
  | some d =>
    refine (Program.obeys_bind (p := e.setLockTimeout d)).2 ((h.setLockTimeout d s hs).mono ?_)
    rintro (_ | _) t ht
    · exact hbody t ht
    · exact ht

end Phases

end Engine

end Stairway
