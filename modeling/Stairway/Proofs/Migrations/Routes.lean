import Stairway.Proofs.Migrations.Neighbours

/-!
# The route of a plan

What a plan holds, said without looking at how it is made: one step for each known version between
its ends, in the order in which they are passed (`Climbs`, `Descends`). Whether a version is known
is said of the scripts alone (`Knows`), so a source in which a version has a script in one direction
only is no exception.

`plan_route` puts this together, with what follows for several plans: the way back is the way there
with each script undone, and a way that leads over a known version is the two ways that meet there.
Both come from cutting a sorted list at a bound (`filter_cut`).
-/

namespace Stairway

def Direction.opposite : Direction → Direction
  | up => down
  | down => up

/-- The script that a step runs. -/
def Step.move (t : Step) : Direction × Nat := (t.direction, t.version)

/-- The script that takes back what a step does. -/
def Step.remedy (t : Step) : Direction × Nat := (t.direction.opposite, t.version)

namespace Source

variable {s : Source}

/-- Whether there is a script of a version, in either direction. -/
def Knows (s : Source) (v : Nat) : Prop := ∃ script ∈ s.up ++ s.down, script.version = v

/-- Whether a plan can begin or end at a version; 0 is no version. -/
def Admits (s : Source) (v : Nat) : Prop := v = 0 ∨ s.Knows v

theorem admits_iff {v : Nat} : s.Admits v ↔ s.reaches v = true := by
  rw [reaches_iff, mem_versions]
  rfl

theorem not_admits_iff {v : Nat} : ¬ s.Admits v ↔ s.reaches v = false := by
  rw [admits_iff, Bool.not_eq_true]

/-- Steps up through the known versions above `c` up to `target`. -/
structure Climbs (s : Source) (c target : Nat) (steps : List Step) : Prop where
  up : ∀ t ∈ steps, t.direction = .up
  ascending : (steps.map Step.version).Pairwise (· < ·)
  mem_iff : ∀ v, v ∈ steps.map Step.version ↔ s.Knows v ∧ c < v ∧ v ≤ target

/-- Steps down through the known versions from `c` to above `target`. -/
structure Descends (s : Source) (c target : Nat) (steps : List Step) : Prop where
  down : ∀ t ∈ steps, t.direction = .down
  descending : (steps.map Step.version).Pairwise (· > ·)
  mem_iff : ∀ v, v ∈ steps.map Step.version ↔ s.Knows v ∧ target < v ∧ v ≤ c
  /-- What a step records is the version that the next one undoes. -/
  next : ∀ {front t u rest}, steps = front ++ t :: u :: rest → t.target = some u.version
  last : ∀ {t}, steps.getLast? = some t → t.level = target

/-! ## Sorted lists that are cut -/

/-- Where all that passes one test comes before all that passes another, the two parts come one
after the other. -/
theorem filter_cut {R : Nat → Nat → Prop} {l : List Nat} (hsorted : l.Pairwise R) {P Q : Nat → Bool}
    (hapart : ∀ v, P v = true → Q v = false) (horder : ∀ v w, R v w → Q v = true → P w = false) :
    (l.filter fun v => P v || Q v) = l.filter P ++ l.filter Q := by
  induction l with
  | nil => rfl
  | cons x rest ih =>
    obtain ⟨hx, hrest⟩ := List.pairwise_cons.1 hsorted
    have ih := ih hrest
    by_cases hP : P x = true
    · simp [hP, hapart x hP, ih]
    · by_cases hQ : Q x = true
      · have hnone : rest.filter P = [] := by
          rw [List.filter_eq_nil_iff]
          intro w hw
          simp [horder x w (hx w hw) hQ]
        rw [hnone, List.nil_append] at ih
        simp [hP, hQ, hnone, ih]
      · simp [hP, hQ, ih]

theorem climb_append {c m target : Nat} (hcm : c ≤ m) (hmt : m ≤ target) :
    s.climb c target = s.climb c m ++ s.climb m target := by
  unfold climb
  rw [← List.map_append, ← filter_cut s.versions_sorted]
  · refine congrArg _ (List.filter_congr fun v _ => ?_)
    rw [Bool.eq_iff_iff]
    simp only [Bool.and_eq_true, Bool.or_eq_true, decide_eq_true_eq]
    omega
  · simp only [Bool.and_eq_true, Bool.and_eq_false_iff, decide_eq_true_eq, decide_eq_false_iff_not]
    omega
  · simp only [Bool.and_eq_true, Bool.and_eq_false_iff, decide_eq_true_eq, decide_eq_false_iff_not]
    omega

theorem descend_append {c m target : Nat} (hcm : m ≤ c) (hmt : target ≤ m) :
    s.descend c target = s.descend c m ++ s.descend m target := by
  have hsorted : s.versions.reverse.Pairwise (· > ·) := List.pairwise_reverse.2 s.versions_sorted
  unfold descend
  rw [← List.map_append, ← filter_cut hsorted]
  · refine congrArg _ (List.filter_congr fun v _ => ?_)
    rw [Bool.eq_iff_iff]
    simp only [Bool.and_eq_true, Bool.or_eq_true, decide_eq_true_eq]
    omega
  · simp only [Bool.and_eq_true, Bool.and_eq_false_iff, decide_eq_true_eq, decide_eq_false_iff_not]
    omega
  · simp only [Bool.and_eq_true, Bool.and_eq_false_iff, decide_eq_true_eq, decide_eq_false_iff_not]
    omega

/-! ## The two ways -/

theorem climb_versions (c target : Nat) :
    (s.climb c target).map Step.version = s.versions.filter fun v => c < v && v ≤ target := by
  unfold climb
  rw [List.map_map]
  exact List.map_id _

theorem descend_versions (c target : Nat) :
    (s.descend c target).map Step.version = s.versions.reverse.filter fun v =>
      target < v && v ≤ c := by
  unfold descend
  rw [List.map_map]
  exact List.map_id _

theorem climb_climbs (c target : Nat) : s.Climbs c target (s.climb c target) where
  up := by
    intro t ht
    obtain ⟨v, -, rfl⟩ := List.mem_map.1 ht
    rfl
  ascending := by
    rw [climb_versions]
    exact s.versions_sorted.filter _
  mem_iff v := by
    rw [climb_versions, List.mem_filter, mem_versions]
    simp only [Bool.and_eq_true, decide_eq_true_eq]
    rfl

/-- Each step starts where the one before has led. -/
theorem Follows.from_next {c : Nat} {front rest : List Step} {t u : Step}
    (h : s.Follows c (front ++ t :: u :: rest)) : u.From s t.level := by
  induction front generalizing c with
  | nil => exact h.2.1
  | cons t' front ih => exact ih h.2

theorem descend_descends {c target : Nat} (hc : s.reaches c = true)
    (htarget : s.reaches target = true) (hle : target ≤ c) :
    s.Descends c target (s.descend c target) where
  down := by
    intro t ht
    obtain ⟨v, -, rfl⟩ := List.mem_map.1 ht
    rfl
  descending := by
    rw [descend_versions]
    exact (List.pairwise_reverse.2 s.versions_sorted).filter _
  mem_iff v := by
    rw [descend_versions, List.mem_filter, List.mem_reverse, mem_versions]
    simp only [Bool.and_eq_true, decide_eq_true_eq]
    rfl
  next := by
    intro front t u rest hsteps
    have hfollows : s.Follows c (s.descend c target) := descend_follows hc
    have hmem : ∀ w ∈ [t, u], ∃ v, w = .down v (s.prev? v) ∧ target < v := by
      intro w hw
      have hw' : w ∈ s.descend c target := by
        rw [hsteps]
        exact List.mem_append_right _ (List.mem_append_left rest hw)
      obtain ⟨v, hv, rfl⟩ := List.mem_map.1 hw'
      have hbetween := (List.mem_filter.1 hv).2
      simp only [Bool.and_eq_true, decide_eq_true_eq] at hbetween
      exact ⟨v, rfl, hbetween.1⟩
    obtain ⟨v, rfl, -⟩ := hmem t (by simp)
    obtain ⟨w, rfl, hw⟩ := hmem u (by simp)
    rw [hsteps] at hfollows
    -- the next step undoes the version that this one leaves, and that is above 0
    have hlevel : w = (s.prev? v).getD 0 := hfollows.from_next.2.1
    cases hprev : s.prev? v with
    | none =>
      rw [hprev, Option.getD_none] at hlevel
      omega
    | some v' =>
      rw [hprev, Option.getD_some] at hlevel
      rw [Step.target, hlevel, Step.version]
  last := by
    intro t hlast
    have hplan : s.plan (some c) target = .ok (s.descend c target) := by
      have hcurrent : s.reaches ((some c).getD 0) = true := hc
      rw [plan_eq htarget hcurrent, Option.getD_some, if_neg (Nat.not_lt_of_le hle)]
    exact plan_last hplan hlast

/-- The way back undoes what the way there has done. -/
theorem descend_undoes (c target : Nat) :
    (s.descend target c).map Step.move = (s.climb c target).reverse.map Step.remedy := by
  unfold descend climb
  rw [← List.map_reverse, ← List.filter_reverse, List.map_map, List.map_map]
  rfl

theorem climb_undoes (c target : Nat) :
    (s.climb target c).map Step.move = (s.descend c target).reverse.map Step.remedy := by
  unfold descend climb
  rw [← List.map_reverse, ← List.filter_reverse, List.reverse_reverse, List.map_map, List.map_map]
  rfl

/-! ## Plans -/

section Plans

variable {current : Option Nat} {target : Nat}

theorem plan_up (htarget : s.reaches target = true) (hcurrent : s.reaches (current.getD 0) = true)
    (hle : current.getD 0 ≤ target) :
    s.plan current target = .ok (s.climb (current.getD 0) target) := by
  rw [plan_eq htarget hcurrent]
  rcases Nat.lt_or_eq_of_le hle with hlt | heq
  · rw [if_pos hlt]
  · rw [heq, if_neg (Nat.lt_irrefl target), descend_self, climb_self]

theorem plan_down (htarget : s.reaches target = true) (hcurrent : s.reaches (current.getD 0) = true)
    (hle : target ≤ current.getD 0) :
    s.plan current target = .ok (s.descend (current.getD 0) target) := by
  rw [plan_eq htarget hcurrent, if_neg (Nat.not_lt_of_le hle)]

/-- The plan of the way back. -/
theorem plan_back (htarget : s.reaches target = true) (hcurrent : s.reaches (current.getD 0) = true)
    {steps : List Step} (hplan : s.plan current target = .ok steps) {back : Option Nat}
    (hback : back.getD 0 = target) : ∃ undone, s.plan back (current.getD 0) = .ok undone ∧
      undone.map Step.move = steps.reverse.map Step.remedy := by
  subst hback
  rcases Nat.le_total (current.getD 0) (back.getD 0) with hle | hle
  · rw [plan_up htarget hcurrent hle] at hplan
    cases hplan
    exact ⟨_, plan_down hcurrent htarget hle, descend_undoes _ _⟩
  · rw [plan_down htarget hcurrent hle] at hplan
    cases hplan
    exact ⟨_, plan_up hcurrent htarget hle, climb_undoes _ _⟩

/-- The plan of a way that leads over a known version. -/
theorem plan_over (htarget : s.reaches target = true) (hcurrent : s.reaches (current.getD 0) = true)
    {steps : List Step} (hplan : s.plan current target = .ok steps) {mid : Option Nat}
    (hmid : s.reaches (mid.getD 0) = true)
    (hbetween : current.getD 0 ≤ mid.getD 0 ∧ mid.getD 0 ≤ target ∨
      target ≤ mid.getD 0 ∧ mid.getD 0 ≤ current.getD 0) :
    ∃ first second, s.plan current (mid.getD 0) = .ok first ∧ s.plan mid target = .ok second ∧
      steps = first ++ second := by
  rcases hbetween with ⟨hcm, hmt⟩ | ⟨htm, hmc⟩
  · rw [plan_up htarget hcurrent (Nat.le_trans hcm hmt)] at hplan
    cases hplan
    exact ⟨_, _, plan_up hmid hcurrent hcm, plan_up htarget hmid hmt, climb_append hcm hmt⟩
  · rw [plan_down htarget hcurrent (Nat.le_trans htm hmc)] at hplan
    cases hplan
    exact ⟨_, _, plan_down hmid hcurrent hmc, plan_down htarget hmid htm, descend_append hmc htm⟩

/-- **The route of a plan.** It fails for ends that are not known, the target first. Otherwise it
goes through the known versions between its ends; the way back is the way there undone; and where it
leads over a known version it is made of the plans to there and from there. A schema that was never
migrated counts as one at 0. -/
theorem plan_route (s : Source) (current : Option Nat) (target : Nat) :
    (¬ s.Admits target → s.plan current target = .error (.missing target)) ∧
    (s.Admits target → ¬ s.Admits (current.getD 0) →
      s.plan current target = .error (.missing (current.getD 0))) ∧
    (s.Admits target → s.Admits (current.getD 0) → ∃ steps, s.plan current target = .ok steps ∧
      (if current.getD 0 < target then s.Climbs (current.getD 0) target steps
        else s.Descends (current.getD 0) target steps) ∧
      (∀ back : Option Nat, back.getD 0 = target → ∃ undone,
        s.plan back (current.getD 0) = .ok undone ∧
        undone.map Step.move = steps.reverse.map Step.remedy) ∧
      (∀ mid : Option Nat, s.Admits (mid.getD 0) →
        (current.getD 0 ≤ mid.getD 0 ∧ mid.getD 0 ≤ target ∨
          target ≤ mid.getD 0 ∧ mid.getD 0 ≤ current.getD 0) →
        ∃ first second, s.plan current (mid.getD 0) = .ok first ∧ s.plan mid target = .ok second ∧
          steps = first ++ second)) := by
  simp only [admits_iff, Bool.not_eq_true]
  refine ⟨fun htarget => ?_, fun htarget hcurrent => ?_, fun htarget hcurrent => ?_⟩
  · simp [plan, htarget]
  · simp [plan, htarget, hcurrent]
  · have hplan := plan_eq htarget hcurrent
    refine ⟨_, hplan, ?_, fun back hback => plan_back htarget hcurrent hplan hback,
      fun mid hmid hbetween => plan_over htarget hcurrent hplan hmid hbetween⟩
    split
    · exact climb_climbs _ _
    · next hnot => exact descend_descends hcurrent htarget (Nat.le_of_not_lt hnot)

end Plans

/-! ### A source with versions that go one way only -/

/-- Versions 2 and 9 can be run but not undone, version 5 can only be undone, and version 7 has both
scripts. -/
def lopsided : Source where
  root := ""
  up := [⟨2, "", .up, ""⟩, ⟨7, "", .up, ""⟩, ⟨9, "", .up, ""⟩]
  down := [⟨5, "", .down, ""⟩, ⟨7, "", .down, ""⟩]

theorem plan_route_lopsided : lopsided.Admits 2 ∧ lopsided.Admits 7 ∧ ¬ lopsided.Admits 3 ∧
    lopsided.plan (some 7) 3 = .error (.missing 3) ∧
    (∃ steps, lopsided.plan (some 7) 2 = .ok steps ∧ lopsided.Descends 7 2 steps ∧
      ∃ undone, lopsided.plan (some 2) 7 = .ok undone ∧
        undone.map Step.move = steps.reverse.map Step.remedy) := by
  have htwo : lopsided.Admits 2 := admits_iff.2 (by decide)
  have hseven : lopsided.Admits 7 := admits_iff.2 (by decide)
  have hthree : ¬ lopsided.Admits 3 := not_admits_iff.2 (by decide)
  obtain ⟨steps, hplan, hroute, hback, -⟩ := (plan_route lopsided (some 7) 2).2.2 htwo hseven
  exact ⟨htwo, hseven, hthree, (plan_route lopsided (some 7) 3).1 hthree, steps, hplan, hroute,
    hback (some 2) rfl⟩

end Source

end Stairway
