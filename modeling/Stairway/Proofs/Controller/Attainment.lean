import Stairway.Proofs.Controller.Background

/-!
# What a success leaves

A caller who is told of a success, and not that time ran out, has waited for the end of the
operation. Nobody else has the engine then, and the engine is as the operation has left it
(`Ready.told`).

`Engine.Attains` is what an engine's programs leave where they succeed, and `Attains.operation` what
follows for an operation, of whichever kind: it has reached the version that was desired. So that is
what a caller finds who is told of a success (`attained`).
-/

namespace Stairway

open Program (onSuccess obeys_andThen)

variable {I : Interface} {S σ : Type} {P : Protocol I S}

/-! ## Operations that succeed -/

namespace Engine

/-- What an engine's programs leave where they succeed, on the way to a version: `read c` where the
version has been read as `c` or marked so, `reached` where the way is at its end. Nothing is said of
failures. -/
structure Attains (P : Protocol I S) (e : Engine I) (desired : Nat)
    (read : SchemaVersion → S → Prop) (reached : S → Prop) : Prop where
  there : ∀ s, read ⟨desired, false⟩ s → reached s
  version : ∀ s,
    e.version.Obeys P (onSuccess (fun v t => read (v.getD ⟨0, false⟩) t) fun _ => True) s
  force : ∀ v s, v ≤ largestForced →
    (e.force v).Obeys P (onSuccess (fun _ t => read ⟨v, false⟩ t) fun _ => True) s
  migrateTo : ∀ s, (e.migrateTo desired).Obeys P (onSuccess (fun _ t => reached t) fun _ => True) s
  log : ∀ line s, (e.log line).Obeys P (fun _ t => t = s) s
  setLockTimeout : ∀ d s, (e.setLockTimeout d).Obeys P (fun _ _ => True) s
  restore : ∀ s, e.restoreLockTimeout.Obeys P (fun _ t => t = s) s

namespace Attains

variable {e : Engine I} {desired : Nat} {read : SchemaVersion → S → Prop} {reached : S → Prop}
  {s : S}

theorem info (h : Attains P e desired read reached) (line : String) :
    (e.info line).run.Obeys P (onSuccess (fun _ t => t = s) fun _ => True) s := by
  refine (Program.obeys_bind (p := e.log line)).2 ((h.log line s).mono ?_)
  rintro (_ | _) t ht
  · exact ht
  · exact trivial

/-- A line of the log where the version has been reached. -/
theorem lastLine (h : Attains P e desired read reached) (line : String) (hs : reached s) :
    (e.info line).run.Obeys P (onSuccess (fun _ t => reached t) fun _ => True) s :=
  (h.info line).imp_ok fun _ _ ht => ht ▸ hs

theorem current (h : Attains P e desired read reached) :
    e.current.run.Obeys P (onSuccess read fun _ => True) s := by
  refine obeys_andThen (Attempt.obeys_ofEngine (h.version s)) ?_
  intro v t ht
  exact ht

theorem migrate (h : Attains P e desired read reached) (announced confirmed : String) :
    (do
      e.info announced
      Attempt.ofEngine (e.migrateTo desired)
      e.info confirmed : Attempt I Unit).run.Obeys P
        (onSuccess (fun _ t => reached t) fun _ => True) s := by
  refine obeys_andThen (h.info announced) ?_
  intro _ t _
  refine obeys_andThen (Attempt.obeys_ofEngine (h.migrateTo t)) ?_
  intro _ u hu
  exact h.lastLine confirmed hu

theorem assertVersion (h : Attains P e desired read reached) :
    (e.assertVersion desired).run.Obeys P (onSuccess (fun _ t => reached t) fun _ => True) s := by
  rw [assertVersion_eq]
  refine obeys_andThen h.current ?_
  rintro ⟨v, dirty⟩ t hread
  split
  · exact trivial
  · next hclean =>
    split
    · exact trivial
    · next hlow =>
      split
      · exact trivial
      · next hhigh =>
        have hclean : dirty = false := by simpa using hclean
        obtain rfl : v = desired := Nat.le_antisymm (Nat.le_of_not_lt hlow) (Nat.le_of_not_lt hhigh)
        exact h.lastLine _ (h.there t (hclean ▸ hread))

theorem applyVersion (h : Attains P e desired read reached) :
    (e.applyVersion desired).run.Obeys P (onSuccess (fun _ t => reached t) fun _ => True) s := by
  rw [applyVersion_eq]
  refine obeys_andThen h.current ?_
  rintro ⟨v, dirty⟩ t hread
  split
  · exact trivial
  · next hclean =>
    split
    · next heq =>
      have hclean : dirty = false := by simpa using hclean
      obtain rfl : v = desired := heq
      exact h.lastLine _ (h.there t (hclean ▸ hread))
    · split
      · exact trivial
      · exact h.migrate _ _

/-- The second half of a rollback, from a version that is clean. -/
theorem lower (h : Attains P e desired read reached) {v : Nat} (hread : read ⟨v, false⟩ s) :
    (e.lower desired v).run.Obeys P (onSuccess (fun _ t => reached t) fun _ => True) s := by
  unfold Engine.lower
  split
  · next heq => exact h.lastLine _ (h.there s (heq ▸ hread))
  · split
    · exact trivial
    · exact h.migrate _ _

theorem rollbackVersion (h : Attains P e desired read reached) :
    (e.rollbackVersion desired).run.Obeys P (onSuccess (fun _ t => reached t) fun _ => True) s := by
  rw [rollbackVersion_eq]
  refine obeys_andThen h.current ?_
  rintro ⟨v, dirty⟩ t hread
  cases dirty with
  | false =>
    have hskip : (pure () : Attempt I Unit).run.Obeys P
        (onSuccess (fun _ u => read ⟨v, false⟩ u) fun _ => True) t :=
      hread
    exact obeys_andThen hskip fun _ u hu => h.lower hu
  | true =>
    have hrepair : (e.repair v).run.Obeys P
        (onSuccess (fun _ u => read ⟨v, false⟩ u) fun _ => True) t := by
      rw [repair_eq]
      refine obeys_andThen (h.info _) ?_
      intro _ u _
      split
      · exact trivial
      · next hfits => exact Attempt.obeys_ofEngine (h.force v u (Nat.le_of_not_lt hfits))
    exact obeys_andThen hrepair fun _ u hu => h.lower hu

theorem perform (h : Attains P e desired read reached) (kind : Transition) :
    (e.perform kind desired).run.Obeys P (onSuccess (fun _ t => reached t) fun _ => True) s := by
  cases kind with
  | assert => exact h.assertVersion
  | apply => exact h.applyVersion
  | rollback => exact h.rollbackVersion

/-- **An operation that succeeds has reached the version that was desired**, whatever time
it had. -/
theorem operation (h : Attains P e desired read reached) (kind : Transition)
    (remaining : Option Duration) :
    (e.operation kind desired remaining).Obeys P
      (fun o t => o = .finished (.ok ()) → reached t) s := by
  have hbody : ∀ t, (Program.ensuring (e.perform kind desired).run e.restoreLockTimeout).Obeys P
      (fun o u => o = .finished (.ok ()) → reached u) t := by
    intro t
    refine Program.obeys_ensuring.2 ((h.perform kind).mono ?_)
    intro o u hu
    refine (h.restore u).mono ?_
    rintro (_ | _) _ rfl
    · rintro rfl
      exact hu
    · nofun
  cases remaining with
  | none => exact hbody s
  | some d =>
    refine (Program.obeys_bind (p := e.setLockTimeout d)).2 ((h.setLockTimeout d s).mono ?_)
    rintro (_ | _) t _
    · exact hbody t
    · nofun

end Attains

end Engine

/-! ## Callers who are told how their operation ended -/

namespace Schedule

variable [Machine I σ] {link : S → σ → Prop}
  {spec : Body I → S → Outcome (Except Failure Unit) → S → Prop} {s₀ : S} {issued : List (Body I)}
    {x : Schedule I σ}

/-- **Where the body issued last has ended** nobody has the engine, and it is as that body has left
it. -/
theorem Ready.ended {b : Body I} (h : Ready P link spec s₀ (issued ++ [b]) x) {e : Ending}
    (he : e ∈ x.endings) (hserial : e.serial = issued.length) :
    x.AtRest ∧ ∃ s t, spec b s e.outcome t ∧ link t x.engine := by
  have hended : x.hasEnded issued.length = true :=
    Schedule.hasEnded_iff.2 (hserial ▸ List.mem_map_of_mem he)
  have hn := h.numbered
  have hnext := h.next
  have hfollows := h.follows
  generalize hall : issued ++ [b] = bodies at hfollows hn hnext
  cases hfollows with
  | @free _ ended s holder served linked =>
    have hlt := (served.hasEnded_iff hn _).1 hended
    have hnobody : x.waiting = [] := by
      have hlength := congrArg List.length hall
      simp only [List.length_append, List.length_singleton] at hlength
      exact List.length_eq_zero_iff.1 (by omega)
    rw [hnobody, List.append_nil] at hall hn hnext
    subst hall
    obtain ⟨before, last, t, hendings, hbefore, -, heffect⟩ := served.last
    have hfront : before.map (·.serial) = List.range issued.length := by
      rw [hbefore.serials, hn.front]
    have hlast : e = last := by
      rw [hendings] at he
      rcases List.mem_append.1 he with he | he
      · have hearlier : e.serial ∈ List.range issued.length := hfront ▸ List.mem_map_of_mem he
        rw [hserial] at hearlier
        exact absurd (List.mem_range.1 hearlier) (Nat.lt_irrefl _)
      · exact List.mem_singleton.1 he
    have hline : x.line = [] := (List.append_eq_nil_iff.1 hnobody).1
    refine ⟨⟨holder, hline, h.closing, ?_⟩, t, s, hlast ▸ heffect, linked⟩
    intro e' he'
    have hmem : e'.serial ∈ List.range (issued ++ [b]).length := by
      rw [← hn, ← served.serials]
      exact List.mem_map_of_mem he'
    rw [hnext]
    exact List.mem_range.1 hmem
  | @held _ ended s t c a holder served reached obeys linked =>
    have hlt := (served.hasEnded_iff hn _).1 hended
    have hlength := congrArg List.length hall
    simp only [List.length_append, List.length_cons, List.length_nil] at hlength
    omega

/-- **A caller who is not told that time ran out** is told how the operation ended, and leaves
nobody at the engine. -/
theorem Ready.told (hP : P.Governs link) (h : Ready P link spec s₀ issued x) (e : Engine I)
    (errand : Errand) (hb : Meets P spec (errand.body e issued.length)) {r : Except Failure Unit}
    (hr : r ≠ .error .timedOut)
    (htold : (x.perform e errand.kind errand.desired errand.deadline errand.expiry).1 = some r) :
    (x.perform e errand.kind errand.desired errand.deadline errand.expiry).2.AtRest ∧
      ∃ s o t, r = o.toResult ∧ spec (errand.body e issued.length) s o t ∧
        link t (x.perform e errand.kind errand.desired errand.deadline errand.expiry).2.engine := by
  have hissued : Ready P link spec s₀ (issued ++ [errand.body e issued.length])
      (x.issue errand.deadline (errand.program e)).2 := h.issue hb
  have hperform : x.perform e errand.kind errand.desired errand.deadline errand.expiry =
      (x.issue errand.deadline (errand.program e)).2.await issued.length errand.expiry :=
    congrArg (Schedule.await _ · errand.expiry) h.next
  rw [hperform] at htold ⊢
  generalize (x.issue errand.deadline (errand.program e)).2 = y at hissued htold
  obtain ⟨heq, -⟩ | ⟨t, r', heq, hr'⟩ | ⟨heq, -, -⟩ := await_cases y issued.length errand.expiry
  · rw [heq] at htold
    cases htold
    exact absurd rfl hr
  · rw [heq] at htold ⊢
    cases htold
    obtain ⟨hout, -⟩ | ⟨ending, hmem, hserial, rfl⟩ := hr'
    · exact absurd hout hr
    · have hlater := (hissued.advance hP (errand.expiry.map (· + 1))).at_ t
      obtain ⟨hrest, s, u, heffect, hlinked⟩ := hlater.ended hmem hserial
      exact ⟨hrest, s, ending.outcome, u, rfl, heffect, hlinked⟩
  · rw [heq] at htold
    cases htold

/-- **A success leaves what was desired**, after whatever calls: nobody has the engine, and what the
operation has reached is there. -/
theorem attained {e : Engine I} {read : SchemaVersion → S → Prop} {reached : Nat → S → Prop} {m : σ}
    (hP : P.Governs link) (hattains : ∀ desired, e.Attains P desired read (reached desired))
    (hlink : link s₀ m) (now : Instant) (errands : List Errand) (last : Errand) {y : Schedule I σ}
    (hcall :
      ((Schedule.follow e errands { engine := m, now := now }).2.rest last.pause).perform e
      last.kind
      last.desired last.deadline last.expiry = (some (.ok ()), y)) :
    y.AtRest ∧ ∃ t, reached last.desired t ∧ link t y.engine := by
  have hmeets : ∀ (errand : Errand) n, Meets P (fun _ _ _ _ => True) (errand.body e n) :=
    fun errand n s _ => ((hattains errand.desired).operation errand.kind _).mono
      fun _ _ _ => trivial
  obtain ⟨bodies, -, hfollow, -⟩ := Ready.follow hP hmeets errands (Ready.start s₀ now hlink)
  rw [List.nil_append] at hfollow
  -- Of the bodies before nothing is said, so the last is told apart by its number.
  have hready : Ready P link
      (fun b _ o t => b.serial = bodies.length → o = .finished (.ok ()) →
        reached last.desired t) s₀ bodies
      ((Schedule.follow e errands { engine := m, now := now }).2.rest last.pause) := by
    refine (hfollow.rest hP last.pause).mono ?_
    intro b hb s o t _ hserial
    have hmem : b.serial ∈ List.range bodies.length := hfollow.numbered ▸ List.mem_map_of_mem hb
    exact absurd hserial (Nat.ne_of_lt (List.mem_range.1 hmem))
  have htold := hready.told hP e last
    (fun s _ => ((hattains last.desired).operation last.kind _).mono fun _ _ ho _ => ho)
    (r := .ok ()) nofun (congrArg Prod.fst hcall)
  rw [hcall] at htold
  obtain ⟨hrest, s, o, t, hresult, hreached, hlinked⟩ := htold
  refine ⟨hrest, t, hreached rfl ?_, hlinked⟩
  cases o with
  | finished result => exact congrArg Outcome.finished hresult.symm
  | crashed => cases hresult

end Schedule

end Stairway
