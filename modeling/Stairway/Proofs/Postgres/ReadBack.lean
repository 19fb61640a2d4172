import Stairway.Proofs.Controller.Attainment
import Stairway.Proofs.Postgres.Glimpse
import Stairway.Proofs.Postgres.RoundTrip

/-!
# What was migrated to is what is read back

A caller is told that an operation has succeeded, after whatever calls were made before, whether or
not their callers stayed, and whatever the server refused on the way. Then the version that the
operation was called with is what the engine reads from now on, clean; but a version that the
version table cannot hold is recorded as none. So an assertion of the same version that is made next
succeeds exactly for versions below 2⁶³, unless the server refuses to let it read (`asserted_next`).

It is followed by a migration to version 2⁶³ that succeeds and leaves nothing recorded.
-/

namespace Stairway.Postgres

variable {p : Plant} {reasons : List String} {g : Glimpse} {desired : Nat}

/-! ## Operations -/

/-- The version has been read, and would be read again. -/
def Reads (c : SchemaVersion) (g : Glimpse) : Prop :=
  ∃ row, Bounded row ∧ schemaOf row = c ∧ g = ⟨row, false, true⟩

/-- A version has been reached: it would be read, as far as the version table can hold it. -/
def Reached (desired : Nat) (g : Glimpse) : Prop :=
  ∃ row, schemaOf row = ⟨kept desired, false⟩ ∧ g = ⟨row, false, true⟩

theorem glancing_attains :
    Engine.Attains (glancing p reasons) p.engine desired Reads (Reached desired) where
  there := by
    rintro _ ⟨row, hbounded, hschema, rfl⟩
    refine ⟨row, ?_, rfl⟩
    have hsmall := level_lt hbounded
    unfold level at hsmall
    rw [hschema] at hsmall ⊢
    rw [kept_of_lt hsmall]
  version g := by
    refine glance_version.imp_ok ?_
    rintro _ _ ⟨row, hbounded, rfl, rfl⟩
    exact ⟨row, hbounded, rfl, rfl⟩
  force v g hfits := by
    refine (glance_force hfits).imp_ok ?_
    rintro _ _ rfl
    refine ⟨_, ?_, schemaOf_row v false, rfl⟩
    rintro _ ⟨⟩
    unfold Engine.largestForced at hfits
    change (v : Int) < 0x8000000000000000
    omega
  migrateTo g := glance_migrateTo
  log line g := ⟨trivial, fun _ _ hg => hg⟩
  setLockTimeout d g := ⟨trivial, fun _ _ _ => trivial⟩
  restore g := ⟨trivial, fun _ _ hg => hg⟩

/-- What an engine reports that the server did not let read. -/
def unread (text : String) : Failure := .engine (DatabaseError.connection (.refused text)).toEngine

/-- The version is read as it was left, unless the server refuses. -/
theorem glance_reread {row : Option Row} : p.engine.version.Obeys (glancing p reasons) (fun o h =>
    (o = .finished (.ok (Plant.ofRow row)) ∧ h = ⟨row, false, true⟩) ∨
      ∃ text ∈ reasons, o = .finished (.error (DatabaseError.connection (.refused text)).toEngine))
    ⟨row, false, true⟩ := by
  refine ⟨trivial, ?_⟩
  rintro _ _ ⟨rfl, rfl⟩
  refine ⟨trivial, ?_⟩
  rintro _ _ ⟨rfl, rfl⟩
  refine ⟨rfl, ?_⟩
  rintro (e | reply) ⟨after, owes, connected⟩ hg
  · obtain ⟨text, hreason, rfl⟩ := hg
    exact .inr ⟨text, hreason, rfl⟩
  · obtain ⟨⟨hreply, hafter⟩, -, howes, hconnected⟩ := hg
    obtain rfl : reply = row := hreply
    obtain rfl : after = reply := hafter
    obtain rfl : owes = false := howes
    obtain rfl : connected = true := hconnected
    exact .inl ⟨rfl, rfl⟩

/-- What an assertion is told of a version that has been reached. -/
def assertion (desired : Nat) : Except Failure Unit :=
  if desired < 0x8000000000000000 then .ok () else .error (.ahead desired 0)

theorem assertion_of_lt (h : desired < 0x8000000000000000) : assertion desired = .ok () := by
  unfold assertion
  rw [if_pos h]

theorem assertion_of_le (h : 0x8000000000000000 ≤ desired) :
    assertion desired = .error (.ahead desired 0) := by
  unfold assertion
  rw [if_neg (Nat.not_lt_of_le h)]

/-- An assertion compares the version that it has read with the desired one. -/
theorem glance_compare {v : Nat} (hv : v = kept desired)
    (hsize : desired < Migrations.FileName.versionLimit) :
    (if desired < v then throw (.behind desired v)
      else if v < desired then throw (.ahead desired v)
      else p.engine.info ("Desired schema version " ++ toString desired ++ " asserted") :
        Attempt interface Unit).run.Obeys (glancing p reasons)
          (fun o _ => o = .finished (assertion desired)) g := by
  by_cases hsmall : desired < 0x8000000000000000
  · obtain rfl : v = desired := hv.trans (kept_of_lt hsmall)
    rw [if_neg (Nat.lt_irrefl v), if_neg (Nat.lt_irrefl v), assertion_of_lt hsmall]
    exact ⟨trivial, fun _ _ _ => rfl⟩
  · have hbig : 0x8000000000000000 ≤ desired := Nat.le_of_not_lt hsmall
    have hpos : 0 < desired := by omega
    obtain rfl : v = 0 := hv.trans (kept_of_le hbig hsize)
    rw [if_neg (Nat.not_lt_zero desired), if_pos hpos, assertion_of_le hbig]
    exact rfl

/-- **An assertion of a version that has been reached** succeeds if the version table can hold the
version, unless the server refuses to let it read. -/
theorem glance_assert (hsize : desired < Migrations.FileName.versionLimit)
    (hg : Reached desired g) :
    (p.engine.operation .assert desired none).Obeys (glancing p reasons)
    (fun o _ => o = .finished (assertion desired) ∨ ∃ text ∈ reasons,
      o = .finished (.error (unread text))) g := by
  obtain ⟨row, hschema, rfl⟩ := hg
  have hread : (p.engine.perform .assert desired).run.Obeys (glancing p reasons) (fun o _ =>
      o = .finished (assertion desired) ∨ ∃ text ∈ reasons, o = .finished (.error (unread text)))
      ⟨row, false, true⟩ := by
    simp only [Engine.perform, Engine.assertVersion_eq]
    refine Program.Obeys.andThen (x := p.engine.current) ?_
    refine Program.Obeys.andThen (x := Attempt.ofEngine p.engine.version) ?_
    refine (Program.obeys_bind (p := p.engine.version)).2 (glance_reread.mono ?_)
    rintro _ h (⟨rfl, rfl⟩ | ⟨text, hreason, rfl⟩)
    · have hversion := congrArg SchemaVersion.version hschema
      have hclean : (schemaOf row).dirty = false := congrArg SchemaVersion.dirty hschema
      change (if (schemaOf row).dirty = true then throw (.dirty (schemaOf row).version) else _ :
        Attempt interface Unit).run.Obeys _ _ _
      rw [hclean, if_neg Bool.false_ne_true]
      exact (glance_compare hversion hsize).mono fun _ _ ho => .inl ho
    · exact .inr ⟨text, hreason, rfl⟩
  refine Program.obeys_ensuring.2 (hread.mono ?_)
  intro o h ho
  exact ⟨trivial, fun _ _ _ => ho⟩

/-! ## The next assertion -/

section Next

open Schedule

variable {site : Site} {y : Schedule interface Site}

/-- What is seen of a site to begin with. The reasons to refuse a statement are those of the
server's rules. -/
theorem glimpsed_start (hbounded : site.server.Bounded)
    (hidle : site.server.verdicts.lookup site.session.client = none) :
    Glimpsed p (site.server.rules.filterMap (·.failure))
      ⟨site.server.rowOf site.session.client p.table, site.session.owesRollback,
        site.session.isConnected⟩
      site := by
  refine ⟨rfl, rfl, rfl, hbounded, ?_, ?_⟩
  · intro r hr text htext
    exact List.mem_filterMap.2 ⟨r, hr, htext⟩
  · rw [hidle]
    nofun

/-- What is told of a version that has been reached, where nobody has the engine. -/
theorem told_next (hrest : y.AtRest) (hreached : Reached desired g)
    (hlinked : Glimpsed p reasons g y.engine) (hsize : desired < Migrations.FileName.versionLimit) :
    (y.perform p.engine .assert desired none none).1 = some (assertion desired) ∨ ∃ text ∈ reasons,
      (y.perform p.engine .assert desired none none).1 = some (.error (unread text)) := by
  obtain ⟨htold, -⟩ := hrest.perform p.engine .assert desired
  obtain ⟨-, -, hend⟩ := (glance_assert hsize hreached).finish glancing_governs hlinked y.now
  rw [htold]
  rcases hend with hend | ⟨text, hreason, hend⟩
  · exact .inl (by rw [hend]; rfl)
  · exact .inr ⟨text, hreason, by rw [hend]; rfl⟩

/-- **What was migrated to is what is read back**, and what the next assertion is told: whatever was
called before, by callers who stayed or did not, once an operation has succeeded its version is the
one that the engine reads, if the version table can hold it. -/
theorem asserted_next (now : Instant) (errands : List Errand) (last : Errand)
    (hbounded : site.server.Bounded)
    (hidle : site.server.verdicts.lookup site.session.client = none)
    (hsize : last.desired < Migrations.FileName.versionLimit)
    (hcall :
      (((Schedule.follow p.engine errands { engine := site, now := now }).2.rest last.pause).perform
        p.engine
        last.kind last.desired last.deadline last.expiry) = (some (.ok ()), y)) :
    schemaOf (y.engine.server.rowOf y.engine.session.client p.table) = ⟨kept last.desired, false⟩ ∧
      ((y.perform p.engine .assert last.desired none none).1 = some (assertion last.desired) ∨
        ∃ rule ∈ site.server.rules, ∃ text, rule.failure = some text ∧
          (y.perform p.engine .assert last.desired none none).1 = some (.error (unread text))) := by
  obtain ⟨hrest, t, hreached, hlinked⟩ := attained glancing_governs
    (fun _ => glancing_attains) (glimpsed_start hbounded hidle) now errands last hcall
  refine ⟨?_, ?_⟩
  · obtain ⟨row, hschema, rfl⟩ := hreached
    rw [← hlinked.row]
    exact hschema
  · rcases told_next hrest hreached hlinked hsize with htold | ⟨text, hreason, htold⟩
    · exact .inl htold
    · obtain ⟨rule, hrule, htext⟩ := List.mem_filterMap.1 hreason
      exact .inr ⟨rule, hrule, text, htext, htold⟩

end Next

/-! ### A version that the table holds, and one that it does not -/

section Applied

open Program (Ensures Yields)

variable {s : Site} {limit : Instant} {row : Option Row} {sent : List Statement}
  {prompts : List Bool} {m : Prompted Site}

theorem yields_info {line : String} (h : Goes p s .closed row sent prompts m) :
    (p.engine.info line).run.Yields (s.clock limit)
      (fun _ n => Goes p s .closed row sent prompts n) m := by
  refine ⟨fun now hlimit => ?_, fun _ _ _ => rfl⟩
  obtain ⟨_, -, hn⟩ := (yields_log h).holds now hlimit
  exact ⟨(), rfl, hn⟩

/-- A program of the engine that answers with a value, in an operation. -/
theorem yields_ofEngine {α : Type} {w : Program interface (Except EngineError α)} {a : α}
    {ok : Prompted Site → Prop} {clock : Program.Clock}
    (h : w.Ensures clock (fun o n => o = .finished (.ok a) ∧ ok n) m) :
    (Attempt.ofEngine w).run.Yields clock (fun b n => b = a ∧ ok n) m := by
  refine Ensures.bind h ?_ ?_
  · rintro _ n ⟨⟨⟩, hn⟩
    exact Yields.done ⟨rfl, hn⟩
  · rintro n ⟨⟨⟩, -⟩

theorem yields_current (h : Goes p s .closed row sent prompts m) :
    p.engine.current.run.Yields (s.clock limit) (fun c n => c = schemaOf row ∧
      Goes p s .closed row (sent ++ [.selectRow p.table]) prompts n) m := by
  refine Yields.andThen (yields_ofEngine (ensures_version h)) ?_
  rintro _ n ⟨rfl, hn⟩
  exact Yields.done ⟨rfl, hn⟩

/-- An apply on a database that was never migrated succeeds, where nothing fails. -/
theorem ensures_apply (hlimit : limit + s.session.lockTimeout ≤ Instant.horizon)
    (hfresh : s.Fresh p) (hknown : desired ∈ p.source.versions) (hpos : 0 < desired)
    (hscripts : p.HasScripts desired s) :
    (p.engine.operation .apply desired none).Ensures (s.clock limit)
      (fun o _ => o = .finished (.ok ())) s := by
  have hgoes : Goes p s .closed none [] [] ⟨s, []⟩ := ⟨hfresh, rfl⟩
  have hperform : (p.engine.perform .apply desired).run.Yields (s.clock limit) (fun _ _ => True)
      (⟨s, []⟩ : Prompted Site) := by
    simp only [Engine.perform, Engine.applyVersion_eq]
    refine Yields.andThen (yields_current hgoes) ?_
    rintro _ n ⟨rfl, hn⟩
    have hschema : schemaOf none = ⟨0, false⟩ := rfl
    rw [hschema, if_neg Bool.false_ne_true, if_neg (Nat.ne_of_lt hpos),
      if_neg (Nat.not_lt_zero desired)]
    refine Yields.andThen (yields_info hn) ?_
    intro _ n hn
    refine Yields.andThen
      (yields_ofEngine (ensures_plan hlimit hn rfl (plan_up hknown) (readable_up hscripts))) ?_
    rintro _ n ⟨-, hn⟩
    exact (yields_info hn).mono fun _ _ _ => trivial
  refine Ensures.unprompted (Ensures.ensuring hperform ?_)
  rintro o n ⟨_, rfl, -⟩
  exact ⟨fun _ _ => ⟨rfl, rfl⟩, fun _ _ _ => rfl⟩

/-- The schedule of a controller whose engine has just been opened. -/
def justOpened : Schedule interface Site := { engine := opened, now := 0 }

/-- An apply by an engine that has just been opened succeeds. -/
theorem finish_apply (hknown : desired ∈ p.source.versions) (hpos : 0 < desired)
    (hscripts : p.HasScripts desired opened) :
    ((p.engine.operation .apply desired none).finish 0 opened).outcome = .finished (.ok ()) := by
  have hlimit : 1 + opened.session.lockTimeout ≤ Instant.horizon := by decide
  have hensures := ensures_apply hlimit (opened_fresh p) hknown hpos hscripts
  have hnow : ((p.engine.operation .apply desired none).finish 0 opened).now = 0 :=
    hensures.stands rfl 0 (by decide)
  have hearly : ((p.engine.operation .apply desired none).finish 0 opened).now < 1 := by
    rw [hnow]
    decide
  exact hensures.holds 0 hearly

theorem told_apply (hknown : desired ∈ p.source.versions) (hpos : 0 < desired)
    (hscripts : p.HasScripts desired opened) :
    (justOpened.perform p.engine .apply desired none none).1 = some (.ok ()) := by
  have hrest : justOpened.AtRest := Schedule.atRest_start opened 0
  obtain ⟨htold, -⟩ := hrest.perform p.engine .apply desired
  change _ =
    some ((p.engine.operation .apply desired none).finish 0 opened).outcome.toResult at htold
  rw [htold, finish_apply hknown hpos hscripts]
  rfl

end Applied

theorem opened_bounded : opened.server.Bounded := ⟨nofun, nofun⟩

theorem asserted_next_oneAndTwo : opened.server.Bounded ∧
    opened.server.verdicts.lookup opened.session.client = none ∧
      2 < Migrations.FileName.versionLimit ∧
        (justOpened.perform oneAndTwo.engine .apply 2 none none).1 = some (.ok ()) ∧
        ((justOpened.perform oneAndTwo.engine .apply 2 none none).2.perform oneAndTwo.engine .assert
          2 none none).1 =
          some (.ok ()) := by
  have htold : (justOpened.perform oneAndTwo.engine .apply 2 none none).1 = some (.ok ()) :=
    told_apply (by decide) (by decide) oneAndTwo_scripts
  have hassertion : assertion 2 = .ok () := assertion_of_lt (by decide)
  have hsize : 2 < Migrations.FileName.versionLimit := by decide
  refine ⟨opened_bounded, rfl, hsize, htold, ?_⟩
  have hnext :=
    asserted_next (p := oneAndTwo) 0 [] ⟨none, .apply, 2, none, none⟩ opened_bounded rfl hsize
    (Prod.ext htold rfl)
  rcases hnext.2 with hasserted | ⟨rule, hrule, -⟩
  · rw [← hassertion]
    exact hasserted
  · cases hrule

/-- A source whose version no version table can hold. -/
def beyond : Plant := plantOf [(0x8000000000000000, "up1", "down1")]

theorem beyond_versions : beyond.source.versions = [0x8000000000000000] := by rfl

theorem beyond_scripts : beyond.HasScripts 0x8000000000000000 opened := by
  intro v hv _ d
  rw [beyond_versions] at hv
  obtain rfl := List.mem_singleton.1 hv
  cases d with
  | up => exact ⟨"UP ONE;", by cbv⟩
  | down => exact ⟨"DOWN ONE;", by cbv⟩

/-- **A migration to 2⁶³ succeeds and is forgotten**: the assertion that is made next is told that
the schema is at 0. -/
theorem beyond_forgotten :
    (justOpened.perform beyond.engine .apply 0x8000000000000000 none none).1 = some (.ok ()) ∧
      ((justOpened.perform beyond.engine .apply 0x8000000000000000 none none).2.perform
        beyond.engine .assert
        0x8000000000000000 none none).1 = some (.error (.ahead 0x8000000000000000 0)) := by
  have hknown : 0x8000000000000000 ∈ beyond.source.versions := by
    rw [beyond_versions]
    exact List.mem_singleton_self _
  have htold := told_apply hknown (by decide) beyond_scripts
  refine ⟨htold, ?_⟩
  obtain ⟨hrest, t, hreached, hlinked⟩ := Schedule.attained glancing_governs
    (fun _ => glancing_attains) (glimpsed_start opened_bounded rfl) 0 []
    ⟨none, .apply, 0x8000000000000000, none, none⟩ (Prod.ext htold rfl)
  rcases told_next hrest hreached hlinked (by decide) with hasserted | ⟨text, hreason, -⟩
  · rw [← assertion_of_le (Nat.le_refl 0x8000000000000000)]
    exact hasserted
  · cases hreason

end Stairway.Postgres
