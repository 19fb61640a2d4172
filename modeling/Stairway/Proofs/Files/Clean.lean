import Mathlib.Data.List.Chain
import Stairway.Proofs.Files.Tree

/-!
# Clean paths

A path is cleaned by its text alone. The segments that are kept on the way are a stack of one shape
(`Stack`): some that lead up, which nothing takes away any more, and ordinary ones on top of them;
from the root none leads up. So a clean path has one of three forms (`IsClean`), and to clean it
again changes nothing (`cleanChars_spelling`).

Where a path leads is found by following its segments one by one. `Follower` is what is needed to
know of a way of following them: it is true of a tree of files without links, and of the bare
places, where everything is taken to be there. What has been followed and what is left of it on the
stack lead to the same place, one segment after the other (`Follower.addSegment`), and so do a path
and the clean one (`clean_lawful`). Of a path that leads nowhere the clean one may lead somewhere
all the same, for it does not pass through what has been folded away; it can only be the place where
the path would lead if everything were there.
-/

namespace Stairway.Files

open Stairway.Files.Tree (isIdle nameOf segmentsOf)

/-! ## Segments -/

/-- The segment that leads up. -/
abbrev parent : List Char := ['.', '.']

/-- Whether a segment is the name of something. -/
structure IsOrdinary (s : List Char) : Prop where
  nonempty : s ≠ []
  notHere : s ≠ ['.']
  notParent : s ≠ parent
  unslashed : '/' ∉ s

/-- What the segments before can be, the last one first. -/
inductive Stack (rooted : Bool) : List (List Char) → Prop
  | parents (n : Nat) (h : rooted = true → n = 0) : Stack rooted (List.replicate n parent)
  | push {s : List Char} {before : List (List Char)} (hs : IsOrdinary s) (h : Stack rooted before) :
    Stack rooted (s :: before)

variable {rooted : Bool} {s path : List Char} {before segs : List (List Char)}

theorem IsOrdinary.notIdle (h : IsOrdinary s) : isIdle s = false := by
  simp [isIdle, h.nonempty, h.notHere]

/-- No separator is left in the pieces. -/
theorem unslashed_of_mem_splitOn (h : s ∈ path.splitOn '/') : '/' ∉ s := by
  induction path generalizing s with
  | nil =>
    rw [List.splitOn_nil, List.mem_singleton] at h
    exact h ▸ List.not_mem_nil
  | cons c rest ih =>
    rw [List.splitOn_cons_eq_if_modifyHead] at h
    split at h
    · rcases List.mem_cons.1 h with rfl | h
      · exact List.not_mem_nil
      · exact ih h
    · next hc =>
      obtain ⟨t, more, hrest⟩ := List.exists_cons_of_ne_nil (List.splitOn_ne_nil '/' rest)
      rw [hrest] at h ih
      rcases List.mem_cons.1 h with rfl | h
      · refine List.not_mem_cons_of_ne_of_not_mem ?_ (ih List.mem_cons_self)
        rintro rfl
        exact hc (beq_self_eq_true '/')
      · exact ih (List.mem_cons_of_mem t h)

theorem segments_eq_filter (path : List Char) :
    segments path = (path.splitOn '/').filter fun s => !isIdle s := by
  unfold segments
  refine List.filter_congr fun s _ => ?_
  simp [isIdle]

/-- A segment that leads somewhere leads up or is ordinary. -/
theorem parent_or_ordinary (hmoves : isIdle s = false) (hslash : '/' ∉ s) :
    s = parent ∨ IsOrdinary s := by
  have hmoves' : s ≠ [] ∧ s ≠ ['.'] := by simpa [isIdle] using hmoves
  by_cases hparent : s = parent
  · exact .inl hparent
  · exact .inr ⟨hmoves'.1, hmoves'.2, hparent, hslash⟩

theorem mem_segments (h : s ∈ segments path) : s = parent ∨ IsOrdinary s := by
  rw [segments_eq_filter, List.mem_filter] at h
  obtain ⟨hmem, hmoves⟩ := h
  exact parent_or_ordinary (by simpa using hmoves) (unslashed_of_mem_splitOn hmem)

/-! ## The stack -/

theorem addSegment_ordinary (h : IsOrdinary s) : addSegment rooted before s = s :: before := by
  rw [addSegment.eq_def, if_pos h.notParent]

theorem addSegment_parent_ordinary (h : IsOrdinary s) :
    addSegment rooted (s :: before) parent = before := by
  simp [addSegment, h.notParent]

/-- Nothing is folded into what leads up itself. -/
theorem addSegment_parent_parents {n : Nat} (h : rooted = true → n = 0) :
    addSegment rooted (List.replicate n parent) parent = List.replicate
      (if rooted then 0 else n + 1) parent := by
  cases n with
  | zero => cases rooted <;> rfl
  | succ n =>
    cases rooted with
    | false => rfl
    | true => cases h rfl

namespace Stack

theorem addSegment (h : Stack rooted before) (hs : s = parent ∨ IsOrdinary s) :
    Stack rooted (addSegment rooted before s) := by
  rcases hs with rfl | hs
  · cases h with
    | parents n hn =>
      rw [addSegment_parent_parents hn]
      exact .parents _ fun hrooted => if_pos hrooted
    | push ht h =>
      rw [addSegment_parent_ordinary ht]
      exact h
  · rw [addSegment_ordinary hs]
    exact .push hs h

theorem foldl (h : Stack rooted before) (hsegs : ∀ s ∈ segs, s = parent ∨ IsOrdinary s) :
    Stack rooted (segs.foldl (Files.addSegment rooted) before) := by
  induction segs generalizing before with
  | nil => exact h
  | cons s rest ih =>
    obtain ⟨hs, hrest⟩ := List.forall_mem_cons.1 hsegs
    exact ih (h.addSegment hs) hrest

/-- A stack is built up again from its own segments. -/
theorem refold (h : Stack rooted before) :
    before.reverse.foldl (Files.addSegment rooted) [] = before := by
  induction h with
  | parents n hn =>
    rw [List.reverse_replicate]
    induction n with
    | zero => rfl
    | succ n ih =>
      have hfree : rooted = false := by
        cases rooted with
        | false => rfl
        | true => exact absurd (hn rfl) (Nat.succ_ne_zero n)
      subst hfree
      have hparents : Files.addSegment false (List.replicate n parent) parent =
          List.replicate (n + 1) parent :=
        addSegment_parent_parents nofun
      rw [List.replicate_succ', List.foldl_append, ih nofun, List.foldl_cons, List.foldl_nil,
        hparents, List.replicate_succ']
  | push hs h ih =>
    rw [List.reverse_cons, List.foldl_append, ih, List.foldl_cons, List.foldl_nil,
      addSegment_ordinary hs]

/-- In order, what leads up stands first. -/
theorem reverse_eq (h : Stack rooted before) :
    ∃ n names, before.reverse = List.replicate n parent ++ names ∧
    (∀ s ∈ names, IsOrdinary s) ∧ (rooted = true → n = 0) := by
  induction h with
  | parents n hn => exact ⟨n, [], by simp, nofun, hn⟩
  | @push s before hs h ih =>
    obtain ⟨n, names, hbefore, hnames, hn⟩ := ih
    refine ⟨n, names ++ [s], by rw [List.reverse_cons, hbefore, List.append_assoc], ?_, hn⟩
    intro t ht
    rcases List.mem_append.1 ht with ht | ht
    · exact hnames t ht
    · rwa [List.mem_singleton.1 ht]

theorem mem_cases (h : Stack rooted before) : ∀ s ∈ before, s = parent ∨ IsOrdinary s := by
  induction h with
  | parents n hn => exact fun s hs => .inl (List.eq_of_mem_replicate hs)
  | push ht h ih => exact List.forall_mem_cons.2 ⟨.inr ht, ih⟩

end Stack

/-! ## Spelling -/

/-- Whether a segment leads somewhere, as far as its text goes. -/
structure IsPart (s : List Char) : Prop where
  notIdle : isIdle s = false
  unslashed : '/' ∉ s

theorem isPart_of_cases (h : s = parent ∨ IsOrdinary s) : IsPart s := by
  rcases h with rfl | h
  · exact ⟨by decide, by decide⟩
  · exact ⟨h.notIdle, h.unslashed⟩

theorem IsPart.nonempty (h : IsPart s) : s ≠ [] := by
  rintro rfl
  cases h.notIdle

theorem Stack.isPart (h : Stack rooted before) : ∀ s ∈ before.reverse, IsPart s :=
  fun s hs => isPart_of_cases (h.mem_cases s (List.mem_reverse.1 hs))

/-- The segments joined by slashes. -/
def joined (segs : List (List Char)) : List Char := ['/'].intercalate segs

/-- The clean path of these segments. -/
def spelling (rooted : Bool) (segs : List (List Char)) : List Char :=
  if rooted then '/' :: joined segs else if (joined segs).isEmpty then ['.'] else joined segs

theorem cleanChars_eq (path : List Char) : cleanChars path =
    spelling (path.head? = some '/') (cleanSegments (path.head? = some '/') (segments path)) := by
  unfold cleanChars spelling joined
  simp only [decide_eq_true_eq]

theorem joined_cons_cons (s t : List Char) (rest : List (List Char)) :
    joined (s :: t :: rest) = s ++ '/' :: joined (t :: rest) := by
  simp [joined, List.intercalate_cons_cons]

theorem joined_singleton (s : List Char) : joined [s] = s := List.intercalate_singleton

theorem joined_head (h : ∀ s ∈ segs, IsPart s) : ∀ c ∈ (joined segs).head?, c ≠ '/' := by
  cases segs with
  | nil => nofun
  | cons s rest =>
    obtain ⟨hs, -⟩ := List.forall_mem_cons.1 h
    obtain ⟨c, cs, rfl⟩ := List.exists_cons_of_ne_nil hs.nonempty
    have hc : c ≠ '/' := fun hc => hs.unslashed (hc ▸ List.mem_cons_self)
    have hhead : (joined ((c :: cs) :: rest)).head? = some c := by
      cases rest with
      | nil => rw [joined_singleton, List.head?_cons]
      | cons t rest => rw [joined_cons_cons, List.cons_append, List.head?_cons]
    rw [hhead]
    rintro _ ⟨⟩
    exact hc

theorem joined_eq_nil (h : ∀ s ∈ segs, IsPart s) : joined segs = [] ↔ segs = [] := by
  constructor
  · intro hnil
    cases segs with
    | nil => rfl
    | cons s rest =>
      have hs := (List.forall_mem_cons.1 h).1.nonempty
      cases rest with
      | nil => exact absurd (joined_singleton s ▸ hnil) hs
      | cons t rest =>
        rw [joined_cons_cons] at hnil
        exact absurd (List.append_eq_nil_iff.1 hnil).1 hs
  · rintro rfl
    rfl

theorem filter_parts (h : ∀ s ∈ segs, IsPart s) : segs.filter (fun s => !isIdle s) = segs := by
  refine List.filter_eq_self.2 fun s hs => ?_
  rw [(h s hs).notIdle]
  rfl

/-- A path that has been spelled splits into its segments again, behind a few idle ones. -/
theorem splitOn_spelling (rooted : Bool) (h : ∀ s ∈ segs, IsPart s) :
    ∃ idle, (spelling rooted segs).splitOn '/' = idle ++ segs ∧ ∀ s ∈ idle, isIdle s = true := by
  by_cases hne : segs = []
  · subst hne
    cases rooted with
    | false => exact ⟨[['.']], by decide, by decide⟩
    | true => exact ⟨[[], []], by decide, by decide⟩
  · have hsplit : (joined segs).splitOn '/' = segs :=
      List.splitOn_intercalate '/' (fun s hs => (h s hs).unslashed) hne
    cases rooted with
    | false =>
      have hempty : ¬(joined segs).isEmpty = true := by rwa [List.isEmpty_iff, joined_eq_nil h]
      rw [spelling, if_neg Bool.false_ne_true, if_neg hempty]
      exact ⟨[], hsplit, nofun⟩
    | true =>
      refine ⟨[[]], ?_, by decide⟩
      rw [spelling, if_pos rfl, List.splitOn_cons_eq_if_modifyHead, if_pos (beq_self_eq_true '/'),
        hsplit, List.singleton_append]

theorem segments_spelling (h : ∀ s ∈ segs, IsPart s) : segments (spelling rooted segs) = segs := by
  obtain ⟨idle, hsplit, hidle⟩ := splitOn_spelling rooted h
  have hnone : idle.filter (fun s => !isIdle s) = [] :=
    List.filter_eq_nil_iff.2 fun s hs => by simp [hidle s hs]
  rw [segments_eq_filter, hsplit, List.filter_append, hnone, List.nil_append, filter_parts h]

theorem spelling_head (h : ∀ s ∈ segs, IsPart s) :
    (spelling rooted segs).head? = some '/' ↔ rooted = true := by
  cases rooted with
  | true => exact iff_of_true rfl rfl
  | false =>
    refine iff_of_false ?_ Bool.false_ne_true
    rw [spelling, if_neg Bool.false_ne_true]
    split
    · decide
    · exact fun hhead => joined_head h '/' hhead rfl

/-- **A path that has been spelled from a stack is clean.** -/
theorem cleanChars_spelling (h : Stack rooted before) :
    cleanChars (spelling rooted before.reverse) = spelling rooted before.reverse := by
  have hhead : decide ((spelling rooted before.reverse).head? = some '/') = rooted := by
    simp only [spelling_head h.isPart, Bool.decide_eq_true]
  rw [cleanChars_eq, hhead, segments_spelling h.isPart, cleanSegments, h.refold]

/-- What is left of a path is a stack. -/
theorem exists_stack (path : List Char) : ∃ before, Stack (path.head? = some '/') before ∧
    cleanChars path = spelling (path.head? = some '/') before.reverse ∧
    before = (segments path).foldl (addSegment (path.head? = some '/')) [] :=
  ⟨_, Stack.foldl (.parents 0 fun _ => rfl) fun _ => mem_segments, cleanChars_eq path, rfl⟩

theorem cleanChars_cleanChars (path : List Char) :
    cleanChars (cleanChars path) = cleanChars path := by
  obtain ⟨before, hstack, hclean, -⟩ := exists_stack path
  rw [hclean, cleanChars_spelling hstack]

theorem cleanChars_head (path : List Char) : (cleanChars path).head? = some '/' ↔
    path.head? = some '/' := by
  obtain ⟨before, hstack, hclean, -⟩ := exists_stack path
  rw [hclean, spelling_head hstack.isPart, decide_eq_true_eq]

/-! ## The forms -/

/-- The forms of a clean path, of which one begins at the root. -/
inductive IsClean : Bool → List Char → Prop
  | here : IsClean false ['.']
  | absolute (names : List (List Char)) (hnames : ∀ s ∈ names, IsOrdinary s) : IsClean true
      ('/' :: joined names)
  | relative (n : Nat) (names : List (List Char)) (hnames : ∀ s ∈ names, IsOrdinary s)
      (hsome : 0 < n + names.length) :
    IsClean false (joined (List.replicate n parent ++ names))

theorem isClean_spelling (h : Stack rooted before) :
    IsClean rooted (spelling rooted before.reverse) := by
  obtain ⟨n, names, hbefore, hnames, hn⟩ := h.reverse_eq
  cases rooted with
  | true =>
    rw [hbefore, hn rfl, List.replicate_zero, List.nil_append, spelling, if_pos rfl]
    exact .absolute names hnames
  | false =>
    rw [spelling, if_neg Bool.false_ne_true]
    split
    · exact .here
    · next hsome =>
      rw [List.isEmpty_iff, joined_eq_nil h.isPart, hbefore] at hsome
      rw [hbefore]
      refine .relative n names hnames ?_
      have hlength := List.length_pos_of_ne_nil hsome
      rwa [List.length_append, List.length_replicate] at hlength

/-- No slash follows a slash. -/
def SingleSlashes (path : List Char) : Prop := path.IsChain fun a b => a = '/' → b ≠ '/'

theorem singleSlashes_of_unslashed (h : '/' ∉ s) : SingleSlashes s := by
  refine List.isChain_iff_getElem.2 fun i hi ha => ?_
  exact absurd (ha ▸ List.getElem_mem _) h

theorem singleSlashes_joined (h : ∀ s ∈ segs, IsPart s) : SingleSlashes (joined segs) := by
  induction segs with
  | nil => exact .nil
  | cons s rest ih =>
    obtain ⟨hs, hrest⟩ := List.forall_mem_cons.1 h
    cases rest with
    | nil =>
      rw [joined_singleton]
      exact singleSlashes_of_unslashed hs.unslashed
    | cons t rest =>
      rw [joined_cons_cons]
      refine List.isChain_append.2 ⟨singleSlashes_of_unslashed hs.unslashed, ?_, ?_⟩
      · exact List.isChain_cons.2 ⟨fun c hc _ => joined_head hrest c hc, ih hrest⟩
      · intro a ha b _ hslash
        exact absurd (hslash ▸ List.mem_of_getLast? ha) hs.unslashed

/-- The last character is one of the last segment. -/
theorem joined_getLast (h : ∀ s ∈ segs, IsPart s) : (joined segs).getLast? ≠ some '/' := by
  induction segs with
  | nil => decide
  | cons s rest ih =>
    obtain ⟨hs, hrest⟩ := List.forall_mem_cons.1 h
    cases rest with
    | nil =>
      rw [joined_singleton]
      exact fun hlast => hs.unslashed (List.mem_of_getLast? hlast)
    | cons t rest =>
      have hmore : joined (t :: rest) ≠ [] := mt (joined_eq_nil hrest).1 (List.cons_ne_nil t rest)
      obtain ⟨c, cs, hcs⟩ := List.exists_cons_of_ne_nil hmore
      rw [joined_cons_cons, List.getLast?_append_of_ne_nil _ (List.cons_ne_nil _ _), hcs,
        List.getLast?_cons_cons, ← hcs]
      exact ih hrest

/-- A path without a slash too many. -/
structure IsTidy (path : List Char) : Prop where
  nonempty : path ≠ []
  single : SingleSlashes path
  trailing : path.getLast? = some '/' → path = ['/']

theorem isTidy_joined (hne : segs ≠ []) (h : ∀ s ∈ segs, IsPart s) : IsTidy (joined segs) where
  nonempty := mt (joined_eq_nil h).1 hne
  single := singleSlashes_joined h
  trailing := fun hlast => absurd hlast (joined_getLast h)

theorem isTidy_spelling (h : ∀ s ∈ segs, IsPart s) : IsTidy (spelling rooted segs) := by
  cases rooted with
  | false =>
    rw [spelling, if_neg Bool.false_ne_true]
    split
    · exact ⟨by decide, .singleton _, by decide⟩
    · next hsome => exact isTidy_joined (fun hnil => hsome (by rw [hnil]; rfl)) h
  | true =>
    rw [spelling, if_pos rfl]
    refine ⟨List.cons_ne_nil _ _,
      List.isChain_cons.2 ⟨fun c hc _ => joined_head h c hc, singleSlashes_joined h⟩, ?_⟩
    intro hlast
    cases hjoined : joined segs with
    | nil => rfl
    | cons c cs =>
      rw [hjoined, List.getLast?_cons_cons, ← hjoined] at hlast
      exact absurd hlast (joined_getLast h)

/-! ## Following -/

/-- Where a segment leads when everything is taken to be there. -/
def Tree.move (at_ : Place) (s : List Char) : Place :=
  if isIdle s then at_ else if s = parent then at_.dropLast else at_ ++ [nameOf s]

/-- What is known of a way to follow segments, whose steps may lead nowhere. -/
structure Follower (step : Place → List Char → Except IoError Place) : Prop where
  move : ∀ {a b s}, step a s = .ok b → b = Tree.move a s
  rest : ∀ {a b s idle}, step a s = .ok b → isIdle idle = true → step a idle = .ok a

namespace Follower

variable {step : Place → List Char → Except IoError Place} {origin p q r : Place}

theorem up (hstep : Follower step) (h : step q parent = .ok r) : r = q.dropLast := hstep.move h

theorem name (hstep : Follower step) (hs : IsOrdinary s)
    (h : step q s = .ok r) : q = r.dropLast := by
  rw [hstep.move h, Tree.move, hs.notIdle, if_neg Bool.false_ne_true, if_neg hs.notParent,
    List.dropLast_concat]

theorem foldlM_concat_iff {l : List (List Char)} :
    (l ++ [s]).foldlM step origin = .ok p ↔ ∃ q, l.foldlM step origin = .ok q ∧
      step q s = .ok p := by
  rw [List.foldlM_append]
  cases l.foldlM step origin with
  | error cause => simp [bind, Except.bind]
  | ok q =>
    have hlast : [s].foldlM step q = step q s := by simp
    simp [bind, Except.bind, hlast]

theorem foldlM_idle {idle : List (List Char)} (hidle : ∀ s ∈ idle, isIdle s = true)
    (hstart : ∀ s, isIdle s = true → step origin s = .ok origin) :
    idle.foldlM step origin = .ok origin := by
  induction idle with
  | nil => rfl
  | cons s rest ih =>
    obtain ⟨hs, hrest⟩ := List.forall_mem_cons.1 hidle
    rw [List.foldlM_cons, hstart s hs]
    exact ih hrest

/-- **One more segment leads from the stack to where it leads from what it stands for.** -/
theorem addSegment (hstep : Follower step) (hstack : Stack rooted before)
    (horigin : rooted = true → origin = []) (hs : s = parent ∨ IsOrdinary s)
    (hbefore : before.reverse.foldlM step origin = .ok q) (hnext : step q s = .ok r) :
    (addSegment rooted before s).reverse.foldlM step origin = .ok r := by
  have hpush : (s :: before).reverse.foldlM step origin = .ok r := by
    rw [List.reverse_cons]
    exact foldlM_concat_iff.2 ⟨q, hbefore, hnext⟩
  rcases hs with rfl | hs
  · cases hstack with
    | parents n hn =>
      rw [addSegment_parent_parents hn]
      cases rooted with
      | false => exact hpush
      | true =>
        -- nothing leads up from the root
        rw [hn rfl] at hbefore
        obtain rfl : origin = q := Except.ok.inj hbefore
        have hroot : r = [] := by rw [hstep.up hnext, horigin rfl, List.dropLast_nil]
        rw [hroot, horigin rfl]
        rfl
    | @push t rest ht h =>
      rw [addSegment_parent_ordinary ht]
      rw [List.reverse_cons] at hbefore
      obtain ⟨q', hrest, hlast⟩ := foldlM_concat_iff.1 hbefore
      rw [hrest, hstep.name ht hlast, hstep.up hnext]
  · rw [addSegment_ordinary hs]
    exact hpush

/-- **A path leads where the stack leads that is left of it.** -/
theorem foldl (hstep : Follower step) (hstack : Stack rooted before)
    (horigin : rooted = true → origin = []) (hsegs : ∀ s ∈ segs, '/' ∉ s)
    (hbefore : before.reverse.foldlM step origin = .ok q) (hpath : segs.foldlM step q = .ok p) :
    (((segs.filter fun s => !isIdle s).foldl (Files.addSegment rooted) before).reverse).foldlM
      step origin = .ok p := by
  induction segs generalizing before q with
  | nil =>
    rw [← hpath]
    exact hbefore
  | cons s rest ih =>
    obtain ⟨hs, hrest⟩ := List.forall_mem_cons.1 hsegs
    rw [List.foldlM_cons] at hpath
    cases hnext : step q s with
    | error cause =>
      rw [hnext] at hpath
      cases hpath
    | ok r =>
      rw [hnext] at hpath
      rw [List.filter_cons]
      split
      · next hmoves =>
        have hcases := parent_or_ordinary (by simpa using hmoves) hs
        exact ih (hstack.addSegment hcases) hrest
          (hstep.addSegment hstack horigin hcases hbefore hnext) hpath
      · next hidle =>
        have hstays : step q s = .ok q := hstep.rest hnext (by simpa using hidle)
        obtain rfl : r = q := Except.ok.inj (hnext.symm.trans hstays)
        exact ih hstack hrest hbefore hpath

/-- **A path leads where its clean form leads.** -/
theorem cleanChars (hstep : Follower step) (horigin : path.head? = some '/' → origin = [])
    (hpath : (path.splitOn '/').foldlM step origin = .ok p) :
    ((cleanChars path).splitOn '/').foldlM step origin = .ok p := by
  obtain ⟨before, hstack, hclean, hbefore⟩ := exists_stack path
  obtain ⟨idle, hsplit, hidle⟩ := splitOn_spelling _ hstack.isPart
  have hstart : ∀ s, isIdle s = true → step origin s = .ok origin := by
    cases hsegs : path.splitOn '/' with
    | nil => exact absurd hsegs (List.splitOn_ne_nil '/' path)
    | cons s rest =>
      rw [hsegs, List.foldlM_cons] at hpath
      cases hfirst : step origin s with
      | error cause =>
        rw [hfirst] at hpath
        cases hpath
      | ok q => exact fun idle hidle => hstep.rest hfirst hidle
  have hkept :=
    hstep.foldl (.parents 0 fun _ => rfl) (fun hrooted => horigin (of_decide_eq_true hrooted))
    (fun s => unslashed_of_mem_splitOn) rfl hpath
  rw [hclean, hsplit, List.foldlM_append, foldlM_idle hidle hstart, hbefore, segments_eq_filter]
  exact hkept

theorem foldlM_eq (hstep : Follower step) (h : segs.foldlM step q = .ok p) :
    p = segs.foldl Tree.move q := by
  induction segs generalizing q with
  | nil => exact (Except.ok.inj h).symm
  | cons s rest ih =>
    rw [List.foldlM_cons] at h
    cases hnext : step q s with
    | error cause =>
      rw [hnext] at h
      cases h
    | ok r =>
      rw [hnext] at h
      rw [List.foldl_cons, ← hstep.move hnext]
      exact ih h

end Follower

namespace Tree

variable {t : Tree}

theorem follower_move : Follower fun at_ s => .ok (move at_ s) where
  move h := (Except.ok.inj h).symm
  rest {a _ _ idle} _ hidle := by rw [move, if_pos hidle]

/-- Where a path leads when everything is taken to be there. -/
def destination (t : Tree) (path : String) : Place := (segmentsOf path).foldl move (t.origin path)

/-- No entry is a link. -/
def Linkless (t : Tree) : Prop := ∀ entry ∈ t.entries, ∀ target, entry.2 ≠ .link target

/-- Where a segment leads among entries that are no links. -/
def step (t : Tree) (at_ : Place) (s : List Char) : Except IoError Place :=
  if t.entryAt? at_ ≠ some .directory then .error .notADirectory
  else if !isIdle s && s ≠ parent && (t.entryAt? (at_ ++ [nameOf s])).isNone then .error .notFound
  else .ok (move at_ s)

theorem follower_step (t : Tree) : Follower t.step where
  move h := by
    unfold step at h
    split at h
    · cases h
    · split at h
      · cases h
      · exact (Except.ok.inj h).symm
  rest {a b s idle} h hidle := by
    unfold step at h ⊢
    split at h
    · cases h
    · next hplace => rw [if_neg hplace, hidle, move, if_pos hidle]; rfl

theorem Linkless.entryAt?_ne (h : t.Linkless) (p : Place) (target : String) :
    t.entryAt? p ≠ some (.link target) := by
  unfold entryAt?
  split
  · nofun
  · intro hlink
    obtain ⟨before, after, hentries, -⟩ := List.lookup_eq_some_iff.1 hlink
    exact h (p, .link target) (by simp [hentries]) target rfl

/-- Without links, a path is walked step by step. -/
theorem Linkless.walk_eq (h : t.Linkless) (links : Nat) (at_ : Place) (segs : List (List Char)) :
    t.walk true links at_ segs = segs.foldlM t.step at_ := by
  fun_induction Tree.walk t true links at_ segs with
  | case1 => rfl
  | case2 links at_ s rest hplace =>
    rw [List.foldlM_cons, step, if_pos hplace]
    rfl
  | case3 links at_ s rest hplace hidle ih =>
    rw [List.foldlM_cons, step, if_neg hplace, hidle, move, if_pos hidle]
    exact ih
  | case4 links at_ rest hplace hidle ih =>
    rw [List.foldlM_cons, step, if_neg hplace]
    exact ih
  | case5 links at_ s rest hplace hidle hup next hnext =>
    simp only [next] at hnext
    simp [step, hplace, hidle, hup, hnext]
    rfl
  | case6 links at_ s rest hplace hidle hup next target hnext hlast =>
    exact absurd hnext (h.entryAt?_ne _ _)
  | case7 at_ s rest hplace hidle hup next target hnext hlast =>
    exact absurd hnext (h.entryAt?_ne _ _)
  | case8 at_ s rest hplace hidle hup next target hnext hlast links start ih =>
    exact absurd hnext (h.entryAt?_ne _ _)
  | case9 links at_ s rest hplace hidle hup next e hlink hnext ih =>
    simp only [next] at hnext ih
    have hstep : t.step at_ s = .ok (at_ ++ [nameOf s]) := by
      simp [step, move, hplace, hidle, hup, hnext]
    rw [List.foldlM_cons, hstep]
    exact ih

end Tree

/-! ## Clean paths -/

theorem toList_clean (path : String) : (clean path).toList = cleanChars path.toList :=
  String.toList_ofList

theorem Tree.origin_clean (t : Tree) (path : String) : t.origin (clean path) = t.origin path := by
  simp only [origin, toList_clean, cleanChars_head]

/-- **A clean path is in one of the forms, and it leads where the path led.** The path may be any
text, and the walk may start at any working directory. -/
theorem clean_lawful (path : String) :
    clean (clean path) = clean path ∧ IsClean (path.toList.head? = some '/') (clean path).toList ∧
      IsTidy (clean path).toList ∧
      ∀ t : Tree, t.destination (clean path) = t.destination path ∧
        (t.Linkless → ∀ p, (t.locate path = .ok p → t.locate (clean path) = .ok p) ∧
          (t.locate (clean path) = .ok p → p = t.destination path)) := by
  obtain ⟨before, hstack, hclean, -⟩ := exists_stack path.toList
  have htidy : IsTidy (clean path).toList := by
    rw [toList_clean, hclean]
    exact isTidy_spelling hstack.isPart
  refine ⟨?_, ?_, htidy, fun t => ?_⟩
  · rw [clean, toList_clean, cleanChars_cleanChars]
    rfl
  · rw [toList_clean, hclean]
    exact isClean_spelling hstack
  · have hrooted : path.toList.head? = some '/' → t.origin path = [] := fun hhead => if_pos hhead
    have hdestination : t.destination (clean path) = t.destination path := by
      have hmoved :=
        Tree.follower_move.cleanChars hrooted (p := t.destination path) List.foldlM_pure
      rw [Tree.follower_move.foldlM_eq hmoved, Tree.destination, t.origin_clean, Tree.segmentsOf,
        toList_clean]
    refine ⟨hdestination, fun hlinks p => ⟨fun hp => ?_, fun hp => ?_⟩⟩
    · have hne : ¬(clean path).isEmpty = true := by
        rw [String.isEmpty_iff, ← String.toList_eq_nil_iff]
        exact htidy.nonempty
      unfold Tree.locate at hp ⊢
      split at hp
      · cases hp
      · rw [hlinks.walk_eq] at hp
        rw [if_neg hne, hlinks.walk_eq, t.origin_clean, Tree.segmentsOf, toList_clean]
        exact (Tree.follower_step t).cleanChars hrooted hp
    · unfold Tree.locate at hp
      split at hp
      · cases hp
      · rw [hlinks.walk_eq] at hp
        rw [← hdestination]
        exact (Tree.follower_step t).foldlM_eq hp

/-- A tree with two directories beside each other. -/
def besides : Tree where
  entries := [([[97]], .directory), ([[97], [98]], .directory), ([[97], [99]], .directory)]
  workingDirectory := [[97], [98]]

/-- From one of the directories to the other. -/
theorem clean_besides : besides.Linkless ∧ besides.locate "../b/./..//c/" = .ok [[97], [99]] ∧
    clean "../b/./..//c/" = "../c" ∧ besides.locate (clean "../b/./..//c/") = .ok [[97], [99]] := by
  have hlinks : besides.Linkless := by
    intro entry hentry target htarget
    have hdirectory : ∀ entry ∈ besides.entries, entry.2 = .directory := by decide
    rw [hdirectory entry hentry] at htarget
    cases htarget
  have hlocate : besides.locate "../b/./..//c/" = .ok [[97], [99]] := by
    rw [Tree.locate, if_neg (by decide), hlinks.walk_eq]
    rfl
  exact ⟨hlinks, hlocate, by decide,
    (((clean_lawful "../b/./..//c/").2.2.2 besides).2 hlinks _).1 hlocate⟩

end Stairway.Files
