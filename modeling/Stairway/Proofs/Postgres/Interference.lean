import Stairway.Proofs.Postgres.Exclusion

/-!
# What sessions can do to each other

A controller decides from a row that it reads without the lock, and its engine plans from a row that
it reads with the lock. Between the two readings other sessions may record other versions, and then
the decision and the plan do not belong together.

* `keepsDirection_iff` says when an operation keeps its direction: if what it finds under the lock
  has not been moved past the version that it shall lead to. Where nobody comes between, it always
  does.
* `mended_iff` says which row a rollback replaces when it marks a dirty version clean: the one that
  others have recorded last. Nobody else holds the lock meanwhile, so no step is under way.

Each is followed by a run in which another session comes between: an apply that runs a down script,
and a rollback that overwrites a version.
-/

namespace Stairway.Postgres

/-! ## Directions -/

/-- Whether an act goes the way of its operation: an apply runs no down script and lowers no
version, a rollback runs no up script and raises none. Assertions do nothing. -/
def Act.Keeps : Transition → Act → Prop
  | .assert, _ => False
  | .apply, .ran d _ => d = .up
  | .rollback, .ran d _ => d = .down
  | .apply, .marked before after => level before ≤ level after
  | .rollback, .marked before after => level after ≤ level before
  | .apply, .mended before after => level before ≤ level after
  | .rollback, .mended before after => level after ≤ level before

instance : ∀ (kind : Transition) (act : Act), Decidable (act.Keeps kind)
  | .assert, _ => isFalse id
  | .apply, .ran d _ => inferInstanceAs (Decidable (d = .up))
  | .rollback, .ran d _ => inferInstanceAs (Decidable (d = .down))
  | .apply, .marked before after => inferInstanceAs (Decidable (level before ≤ level after))
  | .rollback, .marked before after => inferInstanceAs (Decidable (level after ≤ level before))
  | .apply, .mended before after => inferInstanceAs (Decidable (level before ≤ level after))
  | .rollback, .mended before after => inferInstanceAs (Decidable (level after ≤ level before))

/-- Whether a row is not past the version that an operation shall lead to. -/
def IsShortOf : Transition → Nat → Option Row → Prop
  | .assert, _, _ => False
  | .apply, desired, row => level row ≤ desired
  | .rollback, desired, row => desired ≤ level row

namespace Deed

/-- Whether a deed goes the way of its operation. -/
def KeepsDirection (d : Deed) : Prop := d.act.Keeps d.kind

instance (d : Deed) : Decidable d.KeepsDirection := inferInstanceAs (Decidable (d.act.Keeps d.kind))

/-- Whether the row that was found under the lock leaves the operation its direction. A step that
confirms its version always does, and a rollback that marks a version clean does if it does not
raise it. -/
def FindsItsWay (d : Deed) : Prop :=
  match d.act with
  | .ran _ _ => IsShortOf d.kind d.desired d.found
  | .marked _ after => isDirty after = true → IsShortOf d.kind d.desired d.found
  | .mended _ _ => level d.first ≤ level d.found

theorem found_of_undisturbed {d : Deed} (h : d.between = []) : d.found = d.first := by
  simp [found, h, lastRow]

end Deed

/-- Where an operation sets out, it has its way before it. -/
theorem Migrates.isShortOf {kind : Transition} {desired : Nat} {first : Option Row}
    (h : Migrates kind desired first) : IsShortOf kind desired first := by
  cases kind with
  | assert => exact h
  | apply => exact Nat.le_of_lt h.2
  | rollback => exact Nat.le_of_lt h

/-- A script's direction is that of the operation if what was found is short of what is desired. -/
theorem ran_keeps_iff {kind : Transition} {desired version : Nat} {first found : Option Row}
    {dir : Direction} (hmig : Migrates kind desired first)
    (hlead : dir.Leads (level found) desired) :
    (Act.ran dir version).Keeps kind ↔ IsShortOf kind desired found := by
  cases kind with
  | assert => exact hmig.elim
  | apply =>
    cases dir with
    | up => exact iff_of_true rfl (Nat.le_of_lt hlead)
    | down => exact iff_of_false nofun (Nat.not_le_of_lt hlead)
  | rollback =>
    cases dir with
    | up => exact iff_of_false nofun (Nat.not_le_of_lt hlead)
    | down => exact iff_of_true rfl (Nat.le_of_lt hlead)

/-- A step's dirty mark goes the way of the operation on the same condition, and its clean mark
stays. -/
theorem marked_keeps_iff {kind : Transition} {desired : Nat} {first found before after : Option Row}
    (hmig : Migrates kind desired first) (hstep : Advances desired found before after) :
    (Act.marked before after).Keeps kind ↔
      (isDirty after = true → IsShortOf kind desired found) := by
  obtain ⟨dir, hlead, hmark⟩ := hstep
  by_cases hdirty : isDirty after = true
  · rw [if_pos hdirty] at hmark
    have hran := @ran_keeps_iff kind desired 0 first found dir hmig hlead
    cases kind with
    | assert => exact hmig.elim
    | apply =>
      cases dir with
      | up => exact iff_of_true (Nat.le_of_lt hmark) fun _ => hran.1 rfl
      | down => exact iff_of_false (Nat.not_le_of_lt hmark) fun h => nomatch hran.2 (h hdirty)
    | rollback =>
      cases dir with
      | up => exact iff_of_false (Nat.not_le_of_lt hmark) fun h => nomatch hran.2 (h hdirty)
      | down => exact iff_of_true (Nat.le_of_lt hmark) fun _ => hran.1 rfl
  · rw [if_neg hdirty] at hmark
    refine iff_of_true ?_ fun h => absurd h hdirty
    cases kind with
    | assert => exact hmig.elim
    | apply => exact Nat.le_of_eq hmark.symm
    | rollback => exact Nat.le_of_eq hmark

theorem mended_keeps_iff {kind : Transition} {first before after : Option Row}
    (h : Mends kind first after) :
    (Act.mended before after).Keeps kind ↔ level first ≤ level before := by
  obtain ⟨rfl, -, rfl⟩ := h
  rw [Act.Keeps, level, schemaOf_row]

/-- **An operation keeps its direction** if and only if what others recorded since it read the
version has not taken the schema past the version that it shall lead to, or, for a rollback that
marks a dirty version clean, below that version. Of the versions that steps write this is said of
sources whose versions fit the version table. -/
theorem keepsDirection_iff (p : Plant) (server : Server) (sessions : ClientId → Session)
    (moves : List Move) :
    ∀ d ∈ ((World.opening server sessions).run p moves).deeds,
      (∀ before after, d.act = .marked before after → p.source.Fits) →
        (d.KeepsDirection ↔ d.FindsItsWay) ∧ (d.between = [] → d.KeepsDirection) := by
  intro d hd hfits
  have hlawful := (run_lawful p server sessions moves d hd).act
  have hiff : d.KeepsDirection ↔ d.FindsItsWay := by
    unfold Deed.KeepsDirection Deed.FindsItsWay
    cases hact : d.act with
    | ran dir version =>
      rw [hact] at hlawful
      exact ran_keeps_iff hlawful.1 hlawful.2
    | marked before after =>
      rw [hact] at hlawful
      exact marked_keeps_iff hlawful.1 (hlawful.2 (hfits before after hact))
    | mended before after =>
      rw [hact] at hlawful
      obtain ⟨hmends, rfl, -⟩ := hlawful
      exact mended_keeps_iff hmends
  refine ⟨hiff, fun hundisturbed => hiff.2 ?_⟩
  unfold Deed.FindsItsWay
  rw [Deed.found_of_undisturbed hundisturbed]
  cases hact : d.act with
  | ran dir version =>
    rw [hact] at hlawful
    exact hlawful.1.isShortOf
  | marked before after =>
    rw [hact] at hlawful
    exact fun _ => hlawful.1.isShortOf
  | mended before after => exact Nat.le_refl _

/-! ### An apply that is overtaken -/

/-- A script without a name. -/
def scriptOf (d : Direction) (version : Nat) : Script := ⟨version, "", d, ""⟩

/-- A database whose source knows three versions. -/
def threeVersions : Plant where
  source :=
    { root := ""
      up := [scriptOf .up 1, scriptOf .up 2, scriptOf .up 3]
      down := [scriptOf .down 1, scriptOf .down 2, scriptOf .down 3] }
  target := ⟨⟨"postgres".toList, none, [], none, none⟩, "app".toList, Target.defaultTable, true⟩

/-- A server where version 1 is recorded. -/
def atVersionOne : Server := { tables := [(threeVersions.table, some ⟨1, false⟩)] }

def connected : ClientId → Session := fun _ => { isConnected := true }

/-- Sessions that have just connected to it make these moves. -/
def played (moves : List Move) : World :=
  (World.opening atVersionOne connected).run threeVersions moves

/-- One session goes on for so many answers; every script says something. -/
def sprint (i : ClientId) (answers : Nat) : List Move :=
  List.replicate answers (.advance i { content := .ok "SELECT 1" })

/-- A session is told to apply version 2 and reads version 1; before it asks for the lock another
session applies version 3. -/
def overtaken : List Move :=
  [.begin 0 (.operate .apply 2 none)] ++ sprint 0 3 ++ [.begin 1 (.operate .apply 3 none)] ++
    sprint 1 55 ++ sprint 0 32

/-- The apply runs the down script of version 3. -/
theorem apply_runs_down : ∃ d ∈ (played overtaken).deeds,
    d.kind = .apply ∧ d.act = .ran .down 3 ∧ ¬ d.KeepsDirection := by
  decide +kernel

/-- The mark that the apply sets before that script. -/
def goingBack : Deed where
  client := 0
  kind := .apply
  desired := 2
  first := some ⟨1, false⟩
  between := [(1, some ⟨2, true⟩), (1, some ⟨2, false⟩), (1, some ⟨3, true⟩), (1, some ⟨3, false⟩)]
  holders := [0]
  act := .marked (some ⟨3, false⟩) (some ⟨2, true⟩)

theorem keepsDirection_iff_goingBack : goingBack ∈ (played overtaken).deeds ∧
    (goingBack.KeepsDirection ↔ goingBack.FindsItsWay) ∧
      (goingBack.between = [] → goingBack.KeepsDirection) :=
  ⟨by decide +kernel,
    keepsDirection_iff threeVersions atVersionOne connected overtaken goingBack (by decide +kernel)
      fun _ _ _ => by decide⟩

/-! ## Marking clean -/

/-- **A rollback that marks a dirty version clean** replaces the row that others have recorded last,
and so the row that it read if and only if they have recorded none or that row again. Nobody else
holds the lock meanwhile. -/
theorem mended_iff (p : Plant) (server : Server) (sessions : ClientId → Session)
    (moves : List Move) :
    ∀ d ∈ ((World.opening server sessions).run p moves).deeds, ∀ before after,
      d.act = .mended before after →
      d.kind = .rollback ∧ isDirty d.first = true ∧ after = some ⟨level d.first, false⟩ ∧
        (∀ e ∈ d.between, e.1 ≠ d.client) ∧ (∀ c ∈ d.holders, c = d.client) ∧
        (before = d.first ↔ d.between = [] ∨ d.between.getLast?.map (·.2) = some d.first) := by
  intro d hd before after hact
  obtain ⟨halone, hlawful⟩ := run_lawful p server sessions moves d hd
  rw [hact] at hlawful
  obtain ⟨⟨hkind, hdirty, hafter⟩, rfl, hothers⟩ := hlawful
  refine ⟨hkind, hdirty, hafter, hothers, halone, ?_⟩
  unfold Deed.found lastRow
  cases hlast : d.between.getLast? with
  | none => simp [List.getLast?_eq_none_iff.1 hlast]
  | some e =>
    have hsome : d.between ≠ [] := by
      rintro hnil
      simp [hnil] at hlast
    simp [hsome]

/-! ### A rollback that is overtaken -/

/-- A session is told to apply version 3 and has marked version 2 dirty; another session, told to
roll back to version 1, reads that. Before it asks for the lock the first one reaches version 3. -/
def overwritten : List Move :=
  [.begin 1 (.operate .apply 3 none)] ++ sprint 1 21 ++ [.begin 0 (.operate .rollback 1 none)] ++
    sprint 0 3 ++ sprint 1 34 ++ sprint 0 60

/-- The rollback has read version 2, dirty, and writes it over version 3, which was
recorded since. -/
theorem rollback_overwrites : ∃ d ∈ (played overwritten).deeds,
    d.first = some ⟨2, true⟩ ∧ d.act = .mended (some ⟨3, false⟩) (some ⟨2, false⟩) := by
  decide +kernel

/-- What that rollback did when it had the lock. -/
def overwriting : Deed where
  client := 0
  kind := .rollback
  desired := 1
  first := some ⟨2, true⟩
  between := [(1, some ⟨2, false⟩), (1, some ⟨3, true⟩), (1, some ⟨3, false⟩)]
  holders := [0]
  act := .mended (some ⟨3, false⟩) (some ⟨2, false⟩)

theorem mended_iff_overwriting : overwriting ∈ (played overwritten).deeds ∧
    overwriting.act = .mended (some ⟨3, false⟩) (some ⟨2, false⟩) ∧ overwriting.kind = .rollback ∧
      isDirty overwriting.first = true ∧
        (some ⟨2, false⟩ : Option Row) = some ⟨level overwriting.first, false⟩ ∧
        (∀ e ∈ overwriting.between, e.1 ≠ overwriting.client) ∧
        (∀ c ∈ overwriting.holders, c = overwriting.client) ∧
        ((some ⟨3, false⟩ : Option Row) = overwriting.first ↔
          overwriting.between = [] ∨ overwriting.between.getLast?.map (·.2) =
            some overwriting.first) :=
  ⟨by decide +kernel, rfl,
    mended_iff threeVersions atVersionOne connected overwritten overwriting (by decide +kernel)
      (some ⟨3, false⟩) (some ⟨2, false⟩) rfl⟩

end Stairway.Postgres
