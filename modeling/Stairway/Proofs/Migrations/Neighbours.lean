import Stairway.Proofs.Migrations.Plan

/-!
# Plans leave nothing out

`Proofs.Migrations.Plan` says in which direction a plan moves. Here it is said that each step leads
from a version to the one beside it, so that no known version between the ends is passed over
(`plan_follows`), and that a plan can be taken up again: after its first step, what is left is the
plan from the version that this step records (`plan_resume`, and `plan_resume_append` for any part
of it). It ends at its target (`plan_last`).

Both come from how a plan begins, `climb_cons` and `descend_cons`.
-/

namespace Stairway

/-- Whether a step leads from a version to its neighbour: up to the smallest known version above it,
or down from it to the largest known version below. -/
def Step.From (s : Source) (c : Nat) : Step → Prop
  | up v => v ∈ s.versions ∧ c < v ∧ (c = 0 ∨ c ∈ s.versions) ∧ ∀ w ∈ s.versions, w < v → w ≤ c
  | down v result => v ∈ s.versions ∧ v = c ∧ result = s.prev? v

namespace Source

variable {s : Source}

/-- Whether steps lead from neighbour to neighbour, the first of them from `c`. -/
def Follows (s : Source) : Nat → List Step → Prop
  | _, [] => True
  | c, t :: rest => t.From s c ∧ s.Follows t.level rest

/-! ## Known versions -/

theorem find?_isSome {index : ScriptIndex} {v : Nat} :
    (index.find? v).isSome = true ↔ ∃ t ∈ index, t.version = v := by
  simp [ScriptIndex.find?, List.find?_isSome]

theorem mem_versions {v : Nat} : v ∈ s.versions ↔ ∃ t ∈ s.up ++ s.down, t.version = v := by
  unfold versions
  induction s.up ++ s.down with
  | nil => simp
  | cons t rest ih =>
    rw [List.foldr_cons, mem_insertVersion, ih]
    simp [eq_comm]

theorem contains_iff {v : Nat} : s.contains v = true ↔ v ∈ s.versions := by
  rw [contains, Bool.or_eq_true, find?_isSome, find?_isSome, mem_versions]
  simp only [List.mem_append, or_and_right, exists_or]

theorem reaches_iff {v : Nat} : s.reaches v = true ↔ v = 0 ∨ v ∈ s.versions := by
  simp [reaches, contains_iff]

theorem reaches_prev? (v : Nat) : s.reaches ((s.prev? v).getD 0) = true := by
  rw [reaches_iff]
  cases h : s.prev? v with
  | none => exact .inl rfl
  | some w => exact .inr (prev?_mem h).1

/-! ## How plans begin -/

/-- What comes after the first element of a sorted list that passes a test. -/
theorem filter_tail {R : Nat → Nat → Prop} [DecidableRel R] (hirrefl : ∀ v, ¬ R v v) {l : List Nat}
    (hsorted : l.Pairwise R) {P : Nat → Bool} {v : Nat} {vs : List Nat} (h : l.filter P = v :: vs) :
    vs = l.filter fun w => P w && decide (R v w) := by
  induction l with
  | nil => cases h
  | cons x rest ih =>
    obtain ⟨hx, hrest⟩ := List.pairwise_cons.1 hsorted
    by_cases hpass : P x = true
    · rw [List.filter_cons_of_pos hpass] at h
      obtain ⟨rfl, rfl⟩ := List.cons.inj h
      rw [List.filter_cons_of_neg (by simp [hirrefl])]
      refine List.filter_congr fun w hw => ?_
      simp [hx w hw]
    · rw [List.filter_cons_of_neg hpass] at h
      rw [List.filter_cons_of_neg (by simp [hpass])]
      exact ih hrest h

/-- The first element of a sorted list that passes a test comes before all others that do. -/
theorem filter_head {R : Nat → Nat → Prop} {l : List Nat} (hsorted : l.Pairwise R) {P : Nat → Bool}
    {v : Nat} {vs : List Nat} (h : l.filter P = v :: vs) {w : Nat} (hw : w ∈ l)
    (hpass : P w = true) :
    w = v ∨ R v w := by
  have hmem : w ∈ v :: vs := by
    rw [← h]
    exact List.mem_filter.2 ⟨hw, hpass⟩
  have hfiltered : (v :: vs).Pairwise R := by
    rw [← h]
    exact hsorted.filter P
  rcases List.mem_cons.1 hmem with heq | hmem
  · exact .inl heq
  · exact .inr ((List.pairwise_cons.1 hfiltered).1 w hmem)

theorem climb_cons {c target : Nat} {t : Step} {rest : List Step}
    (h : s.climb c target = t :: rest) :
    ∃ v, t = .up v ∧ v ∈ s.versions ∧ c < v ∧ v ≤ target ∧ (∀ w ∈ s.versions, w < v → w ≤ c) ∧
      rest = s.climb v target := by
  unfold climb at h
  obtain ⟨v, vs, hvs, rfl, rfl⟩ := List.map_eq_cons_iff.1 h
  have htail := filter_tail Nat.lt_irrefl s.versions_sorted hvs
  have hv : v ∈ s.versions ∧ c < v ∧ v ≤ target := by
    have hmem : v ∈ s.versions.filter fun v => c < v && v ≤ target := by simp [hvs]
    simpa using List.mem_filter.1 hmem
  refine ⟨v, rfl, hv.1, hv.2.1, hv.2.2, ?_, ?_⟩
  · intro w hw hlt
    refine Nat.le_of_not_lt fun hcw => ?_
    have hpass : (decide (c < w) && decide (w ≤ target)) = true := by
      simp only [Bool.and_eq_true, decide_eq_true_eq]
      exact ⟨hcw, Nat.le_trans (Nat.le_of_lt hlt) hv.2.2⟩
    rcases filter_head s.versions_sorted hvs hw hpass with heq | hvw
    · exact Nat.ne_of_lt hlt heq
    · exact Nat.lt_asymm hlt hvw
  · unfold climb
    rw [htail]
    congr 1
    refine List.filter_congr fun w _ => ?_
    rw [Bool.eq_iff_iff]
    simp only [Bool.and_eq_true, decide_eq_true_eq]
    omega

theorem descend_cons {c target : Nat} {t : Step} {rest : List Step}
    (h : s.descend c target = t :: rest) :
    ∃ v, t = .down v (s.prev? v) ∧ v ∈ s.versions ∧ target < v ∧ v ≤ c ∧
      (∀ w ∈ s.versions, w ≤ c → w ≤ v) ∧ rest = s.descend ((s.prev? v).getD 0) target := by
  unfold descend at h
  obtain ⟨v, vs, hvs, rfl, rfl⟩ := List.map_eq_cons_iff.1 h
  have hsorted : s.versions.reverse.Pairwise (· > ·) := List.pairwise_reverse.2 s.versions_sorted
  have htail := filter_tail (R := (· > ·)) Nat.lt_irrefl hsorted hvs
  have hv : v ∈ s.versions ∧ target < v ∧ v ≤ c := by
    have hmem : v ∈ s.versions.reverse.filter fun v => target < v && v ≤ c := by simp [hvs]
    simpa using List.mem_filter.1 hmem
  refine ⟨v, rfl, hv.1, hv.2.1, hv.2.2, ?_, ?_⟩
  · intro w hw hle
    refine Nat.le_of_not_lt fun hvw => ?_
    have hpass : (decide (target < w) && decide (w ≤ c)) = true := by
      simp only [Bool.and_eq_true, decide_eq_true_eq]
      exact ⟨Nat.lt_trans hv.2.1 hvw, hle⟩
    rcases filter_head hsorted hvs (List.mem_reverse.2 hw) hpass with heq | hwv
    · exact Nat.ne_of_gt hvw heq
    · exact Nat.lt_asymm hvw hwv
  · unfold descend
    rw [htail]
    congr 1
    refine List.filter_congr fun w hw => ?_
    have hlower : (s.prev? v).getD 0 < v := level_prev?_lt (by omega)
    have hbelow : w < v → w ≤ (s.prev? v).getD 0 := le_level_prev? (List.mem_reverse.1 hw)
    rw [Bool.eq_iff_iff]
    simp only [Bool.and_eq_true, decide_eq_true_eq]
    omega

/-! ## Plans -/

theorem climb_follows {c target : Nat} (hc : s.reaches c = true) :
    s.Follows c (s.climb c target) := by
  generalize hsteps : s.climb c target = steps
  induction steps generalizing c with
  | nil => trivial
  | cons t rest ih =>
    obtain ⟨v, rfl, hv, hlt, -, hnext, rfl⟩ := climb_cons hsteps
    exact ⟨⟨hv, hlt, reaches_iff.1 hc, hnext⟩, ih (reaches_iff.2 (.inr hv)) rfl⟩

theorem descend_follows {c target : Nat} (hc : s.reaches c = true) :
    s.Follows c (s.descend c target) := by
  generalize hsteps : s.descend c target = steps
  induction steps generalizing c with
  | nil => trivial
  | cons t rest ih =>
    obtain ⟨v, rfl, hv, htarget, hle, hlast, rfl⟩ := descend_cons hsteps
    -- The version from which the plan starts is known, and so it is the first to be undone.
    have hknown : c ∈ s.versions := (reaches_iff.1 hc).resolve_left (by omega)
    have hcv : v = c := Nat.le_antisymm hle (hlast c hknown (Nat.le_refl c))
    exact ⟨⟨hv, hcv, rfl⟩, ih (reaches_prev? v) rfl⟩

theorem plan_reaches {current : Option Nat} {target : Nat} {steps : List Step}
    (h : s.plan current target = .ok steps) :
    s.reaches target = true ∧ s.reaches (current.getD 0) = true := by
  simp only [plan] at h
  split at h
  · cases h
  · next htarget =>
    split at h
    · cases h
    · next hcurrent => exact ⟨by simpa using htarget, by simpa using hcurrent⟩

/-- **A plan leads from neighbour to neighbour.** -/
theorem plan_follows {current : Option Nat} {target : Nat} {steps : List Step}
    (h : s.plan current target = .ok steps) : s.Follows (current.getD 0) steps := by
  have hc := (plan_reaches h).2
  rcases plan_cases h with ⟨-, rfl⟩ | ⟨-, rfl⟩
  · exact climb_follows hc
  · exact descend_follows hc

theorem climb_self (c : Nat) : s.climb c c = [] := by
  unfold climb
  rw [List.map_eq_nil_iff, List.filter_eq_nil_iff]
  intro v _
  simp only [Bool.and_eq_true, decide_eq_true_eq]
  omega

theorem plan_eq {current : Option Nat} {target : Nat} (htarget : s.reaches target = true)
    (hcurrent : s.reaches (current.getD 0) = true) :
    s.plan current target = .ok (if current.getD 0 < target then s.climb (current.getD 0) target
      else s.descend (current.getD 0) target) := by
  simp only [plan, htarget, hcurrent, Bool.not_true, Bool.false_eq_true, if_false]
  split <;> rfl

/-- **A plan can be taken up again** where its first step has led. -/
theorem plan_resume {current : Option Nat} {target : Nat} {t : Step} {rest : List Step}
    (h : s.plan current target = .ok (t :: rest)) : s.plan t.target target = .ok rest := by
  have hreach := plan_reaches h
  rcases plan_cases h with ⟨-, hsteps⟩ | ⟨-, hsteps⟩
  · obtain ⟨v, rfl, hv, -, hle, -, rfl⟩ := climb_cons hsteps.symm
    have hplan : s.plan (some v) target = _ := plan_eq hreach.1 (reaches_iff.2 (.inr hv))
    rw [Step.target, hplan, Option.getD_some]
    rcases Nat.lt_or_eq_of_le hle with hlt | rfl
    · rw [if_pos hlt]
    · rw [if_neg (Nat.lt_irrefl v), descend_self, climb_self]
  · obtain ⟨v, rfl, hv, htarget, -, -, rfl⟩ := descend_cons hsteps.symm
    have hge : target ≤ (s.prev? v).getD 0 := by
      rcases reaches_iff.1 hreach.1 with rfl | hknown
      · exact Nat.zero_le _
      · exact le_level_prev? hknown htarget
    rw [Step.target, plan_eq hreach.1 (reaches_prev? v), if_neg (Nat.not_lt_of_le hge)]

/-- Wherever a plan is broken off after a step, what is left is the plan from there. -/
theorem plan_resume_append {current : Option Nat} {target : Nat} {done rest : List Step} {t : Step}
    (h : s.plan current target = .ok (done ++ t :: rest)) : s.plan t.target target = .ok rest := by
  induction done generalizing current with
  | nil => exact plan_resume h
  | cons t' done ih => exact ih (plan_resume h)

/-- A plan runs the scripts of known versions. -/
theorem plan_known {current : Option Nat} {target : Nat} {steps : List Step}
    (h : s.plan current target = .ok steps) : ∀ t ∈ steps, t.version ∈ s.versions := by
  intro t ht
  rcases plan_cases h with ⟨-, rfl⟩ | ⟨-, rfl⟩
  · obtain ⟨v, hv, rfl⟩ := List.mem_map.1 ht
    exact (List.mem_filter.1 hv).1
  · obtain ⟨v, hv, rfl⟩ := List.mem_map.1 ht
    exact List.mem_reverse.1 (List.mem_filter.1 hv).1

/-- There is nothing to do only at the target. -/
theorem plan_nil {current : Option Nat} {target : Nat} (h : s.plan current target = .ok []) :
    current.getD 0 = target := by
  obtain ⟨htarget, hcurrent⟩ := plan_reaches h
  rcases plan_cases h with ⟨hlt, hsteps⟩ | ⟨hle, hsteps⟩
  · have hknown : target ∈ s.versions := (reaches_iff.1 htarget).resolve_left (by omega)
    have hmem : Step.up target ∈ s.climb (current.getD 0) target := by
      simp [climb, hknown, hlt]
    rw [← hsteps] at hmem
    cases hmem
  · refine Nat.le_antisymm (Nat.le_of_not_lt fun hlt => ?_) hle
    have hknown : current.getD 0 ∈ s.versions := (reaches_iff.1 hcurrent).resolve_left (by omega)
    have hmem : Step.down (current.getD 0) (s.prev? (current.getD 0)) ∈
        s.descend (current.getD 0) target := by
      simp only [descend, List.mem_map, List.mem_filter, List.mem_reverse, Bool.and_eq_true,
        decide_eq_true_eq]
      exact ⟨_, ⟨hknown, hlt, Nat.le_refl _⟩, rfl⟩
    rw [← hsteps] at hmem
    cases hmem

/-- **The last step of a plan leads to the target.** -/
theorem plan_last {current : Option Nat} {target : Nat} {steps : List Step} {t : Step}
    (h : s.plan current target = .ok steps) (hlast : steps.getLast? = some t) :
    t.level = target := by
  obtain ⟨front, rfl⟩ := List.getLast?_eq_some_iff.1 hlast
  exact plan_nil (plan_resume_append h)

end Source

end Stairway
