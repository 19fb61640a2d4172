import Stairway.Migrations.Source

/-!
# Where plans lead

A plan moves one way only: every step of `Source.plan` has the direction of the whole, and the
version that it leaves recorded lies beyond the one before it (`plan_moves`). Nothing is said about
which versions a plan visits, and nothing about scripts that a version lacks.
-/

namespace Stairway

/-- Whether going from one version to another is going in a direction. -/
def Direction.Leads : Direction → Nat → Nat → Prop
  | .up, a, b => a < b
  | .down, a, b => b < a

instance (d : Direction) (a b : Nat) : Decidable (d.Leads a b) :=
  match d with
  | .up => inferInstanceAs (Decidable (a < b))
  | .down => inferInstanceAs (Decidable (b < a))

namespace Step

/-- The version that a step leaves recorded, none counting as 0. -/
def level (s : Step) : Nat := s.target.getD 0

/-- Steps that go on in one direction, the first of them from `c`. -/
def Moves (d : Direction) : Nat → List Step → Prop
  | _, [] => True
  | c, s :: rest => s.direction = d ∧ d.Leads c s.level ∧ Moves d s.level rest

end Step

namespace Source

/-! ## Known versions -/

theorem mem_insertVersion {v w : Nat} {vs : List Nat} :
    w ∈ insertVersion v vs ↔ w = v ∨ w ∈ vs := by
  induction vs with
  | nil => simp [insertVersion]
  | cons x rest ih =>
    rw [insertVersion]
    split
    · simp
    · split
      · next heq =>
        subst heq
        simp
      · simp only [List.mem_cons, ih]
        exact or_left_comm

theorem insertVersion_sorted {v : Nat} {vs : List Nat} (h : vs.Pairwise (· < ·)) :
    (insertVersion v vs).Pairwise (· < ·) := by
  induction vs with
  | nil => simp [insertVersion]
  | cons x rest ih =>
    obtain ⟨hx, hrest⟩ := List.pairwise_cons.1 h
    rw [insertVersion]
    split
    · next hlt =>
      refine List.pairwise_cons.2 ⟨?_, h⟩
      intro w hw
      rcases List.mem_cons.1 hw with rfl | hw
      · exact hlt
      · exact Nat.lt_trans hlt (hx w hw)
    · split
      · exact h
      · next hge hne =>
        refine List.pairwise_cons.2 ⟨?_, ih hrest⟩
        intro w hw
        rcases mem_insertVersion.1 hw with rfl | hw
        · omega
        · exact hx w hw

variable (s : Source)

theorem versions_sorted : s.versions.Pairwise (· < ·) := by
  unfold versions
  induction s.up ++ s.down with
  | nil => exact List.Pairwise.nil
  | cons t rest ih => exact insertVersion_sorted ih

variable {s}

theorem prev?_mem {v w : Nat} (h : s.prev? v = some w) : w ∈ s.versions ∧ w < v := by
  unfold prev? at h
  exact ⟨List.mem_reverse.1 (List.mem_of_find?_eq_some h), by simpa using List.find?_some h⟩

/-- Below a version that is above nothing there is only 0. -/
theorem level_prev?_lt {v : Nat} (hv : 0 < v) : (s.prev? v).getD 0 < v := by
  cases h : s.prev? v with
  | none => exact hv
  | some w => exact (prev?_mem h).2

/-- No known version lies between `v` and the one before it. -/
theorem le_level_prev? {v w : Nat} (hw : w ∈ s.versions) (hlt : w < v) :
    w ≤ (s.prev? v).getD 0 := by
  have hsorted : s.versions.reverse.Pairwise (· > ·) := List.pairwise_reverse.2 s.versions_sorted
  have hmem : w ∈ s.versions.reverse := List.mem_reverse.2 hw
  -- The versions are looked through from the largest down, so the first one below `v` is the
  -- largest.
  unfold prev?
  generalize s.versions.reverse = vs at hsorted hmem
  induction vs with
  | nil => cases hmem
  | cons x rest ih =>
    obtain ⟨hx, hrest⟩ := List.pairwise_cons.1 hsorted
    by_cases hxv : x < v
    · rw [List.find?_cons_of_pos (by simpa using hxv)]
      rcases List.mem_cons.1 hmem with rfl | hmem
      · exact Nat.le_refl _
      · exact Nat.le_of_lt (hx w hmem)
    · rw [List.find?_cons_of_neg (by simpa using hxv)]
      rcases List.mem_cons.1 hmem with rfl | hmem
      · exact absurd hlt hxv
      · exact ih hrest hmem

/-! ## Plans -/

theorem moves_up {c : Nat} {vs : List Nat} (hsorted : vs.Pairwise (· < ·))
    (habove : ∀ v ∈ vs, c < v) :
    Step.Moves .up c (vs.map .up) := by
  induction vs generalizing c with
  | nil => trivial
  | cons v rest ih =>
    obtain ⟨hv, hrest⟩ := List.pairwise_cons.1 hsorted
    exact ⟨rfl, habove v List.mem_cons_self, ih hrest hv⟩

theorem moves_down {c : Nat} {vs : List Nat} (hsorted : vs.Pairwise (· > ·))
    (hknown : ∀ v ∈ vs, v ∈ s.versions) (hbelow : ∀ v ∈ vs, 0 < v ∧ v ≤ c) :
    Step.Moves .down c (vs.map fun v => .down v (s.prev? v)) := by
  induction vs generalizing c with
  | nil => trivial
  | cons v rest ih =>
    obtain ⟨hv, hrest⟩ := List.pairwise_cons.1 hsorted
    obtain ⟨hpos, hle⟩ := hbelow v List.mem_cons_self
    have hlower : (s.prev? v).getD 0 < c := Nat.lt_of_lt_of_le (level_prev?_lt hpos) hle
    refine ⟨rfl, hlower, ih hrest (fun w hw => hknown w (List.mem_cons_of_mem v hw)) ?_⟩
    intro w hw
    have hbetween := le_level_prev? (hknown w (List.mem_cons_of_mem v hw)) (hv w hw)
    exact ⟨(hbelow w (List.mem_cons_of_mem v hw)).1, hbetween⟩

theorem climb_moves (c target : Nat) : Step.Moves .up c (s.climb c target) := by
  refine moves_up (s.versions_sorted.filter _) ?_
  intro v hv
  simp only [List.mem_filter, Bool.and_eq_true, decide_eq_true_eq] at hv
  exact hv.2.1

theorem descend_moves (c target : Nat) : Step.Moves .down c (s.descend c target) := by
  refine moves_down ((List.pairwise_reverse.2 s.versions_sorted).filter _) ?_ ?_
  · intro v hv
    exact List.mem_reverse.1 (List.mem_filter.1 hv).1
  · intro v hv
    simp only [List.mem_filter, Bool.and_eq_true, decide_eq_true_eq] at hv
    exact ⟨Nat.zero_lt_of_lt hv.2.1, hv.2.2⟩

theorem descend_self (c : Nat) : s.descend c c = [] := by
  unfold descend
  rw [List.map_eq_nil_iff, List.filter_eq_nil_iff]
  intro v _
  simp only [Bool.and_eq_true, decide_eq_true_eq]
  omega

theorem plan_cases {current : Option Nat} {target : Nat} {steps : List Step}
    (h : s.plan current target = .ok steps) :
    (current.getD 0 < target ∧ steps = s.climb (current.getD 0) target) ∨
      (target ≤ current.getD 0 ∧ steps = s.descend (current.getD 0) target) := by
  simp only [plan] at h
  split at h
  · cases h
  · split at h
    · cases h
    · split at h
      · next hlt =>
        cases h
        exact .inl ⟨hlt, rfl⟩
      · next hge =>
        cases h
        exact .inr ⟨Nat.le_of_not_lt hge, rfl⟩

/-- **A plan has one direction**, the one in which its target lies; there is nothing to do at the
target. -/
theorem plan_moves {current : Option Nat} {target : Nat} {steps : List Step}
    (h : s.plan current target = .ok steps) :
    steps = [] ∨ ∃ d : Direction, d.Leads (current.getD 0) target ∧
      Step.Moves d (current.getD 0) steps := by
  rcases plan_cases h with ⟨hlt, rfl⟩ | ⟨hle, rfl⟩
  · exact .inr ⟨.up, hlt, climb_moves _ _⟩
  · rcases Nat.eq_or_lt_of_le hle with heq | hlt
    · left
      rw [← heq]
      exact descend_self target
    · exact .inr ⟨.down, hlt, descend_moves _ _⟩

/-! ## Versions that a database can hold -/

/-- Whether all known versions are numbers that 64 bits with a sign can hold. -/
def Fits (s : Source) : Prop := ∀ v ∈ s.versions, v < 0x8000000000000000

instance (s : Source) : Decidable s.Fits := inferInstanceAs (Decidable (∀ v ∈ s.versions, _))

theorem Fits.target (hfits : s.Fits) {current : Option Nat} {target : Nat} {steps : List Step}
    (h : s.plan current target = .ok steps) :
    ∀ t ∈ steps, ∀ v, t.target = some v → v < 0x8000000000000000 := by
  intro t ht v hv
  rcases plan_cases h with ⟨-, rfl⟩ | ⟨-, rfl⟩
  · obtain ⟨w, hw, rfl⟩ := List.mem_map.1 ht
    cases hv
    exact hfits v (List.mem_filter.1 hw).1
  · obtain ⟨w, -, rfl⟩ := List.mem_map.1 ht
    exact hfits v (prev?_mem hv).1

end Source

end Stairway
