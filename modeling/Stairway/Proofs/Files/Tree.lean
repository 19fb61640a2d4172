import Mathlib.Data.List.Induction
import Mathlib.Data.List.Nodup
import Stairway.Files.Tree

/-!
# What a tree holds, and in which order

The entries of a tree stand in the order in which they were made, and this is the order in which a
directory is listed. Nothing else of a tree depends on it: in a lawful tree (`IsLawful`) an entry is
found at its place wherever it stands (`entryAt?_eq_some_iff`), so that trees with the same entries
are walked alike (`SameEntries.locate_eq`), and a listing holds what there is in a directory, once
(`mem_listing_iff`, `listing_nodup`).

A path is walked part by part (`walk_append`); a file of a directory is read at the directory's path
with the file's name behind it (`read_join`).
-/

namespace Stairway.Files

namespace Tree

/-- A tree as there can be: one entry at each place, and no slash in a name. -/
structure IsLawful (t : Tree) : Prop where
  places : (t.entries.map Prod.fst).Nodup
  names : ∀ entry ∈ t.entries, ∀ name ∈ entry.1, 0x2F ∉ name

/-- Trees that hold the same entries, made in two orders. -/
structure SameEntries (t t' : Tree) : Prop where
  lawful : t.IsLawful
  entries : t.entries.Perm t'.entries
  workingDirectory : t'.workingDirectory = t.workingDirectory

variable {t t' : Tree} {p : Place}

/-! ## Entries -/

theorem lookup_eq_some_iff_mem {l : List (Place × Entry)} (hnodup : (l.map Prod.fst).Nodup)
    {q : Place} {e : Entry} :
    l.lookup q = some e ↔ (q, e) ∈ l := by
  induction l with
  | nil => simp
  | cons entry l ih =>
    obtain ⟨q', e'⟩ := entry
    obtain ⟨hnew, htail⟩ := List.nodup_cons.1 hnodup
    rw [List.lookup_cons, List.mem_cons, ← ih htail]
    by_cases hq : q = q'
    · subst hq
      have hnone : l.lookup q ≠ some e := fun hfound =>
        hnew (List.mem_map.2 ⟨(q, e), (ih htail).1 hfound, rfl⟩)
      simp [hnone, eq_comm]
    · have hbeq : (q == q') = false := beq_eq_false_iff_ne.2 hq
      simp [hbeq, hq]

theorem entryAt?_eq_some_iff (h : t.IsLawful) {name : Name} {e : Entry} :
    t.entryAt? (p ++ [name]) = some e ↔ (p ++ [name], e) ∈ t.entries := by
  have hsome : (p ++ [name]).isEmpty = false := by simp
  rw [entryAt?, hsome, if_neg Bool.false_ne_true, lookup_eq_some_iff_mem h.places]

namespace SameEntries

theorem symm (h : t.SameEntries t') : t'.SameEntries t where
  lawful.places := (h.entries.map Prod.fst).nodup_iff.1 h.lawful.places
  lawful.names := fun entry hentry => h.lawful.names entry (h.entries.mem_iff.2 hentry)
  entries := h.entries.symm
  workingDirectory := h.workingDirectory.symm

theorem entryAt?_eq (h : t.SameEntries t') (q : Place) : t'.entryAt? q = t.entryAt? q := by
  unfold entryAt?
  split
  · rfl
  · refine Option.ext fun e => ?_
    rw [lookup_eq_some_iff_mem h.symm.lawful.places, lookup_eq_some_iff_mem h.lawful.places,
      h.entries.mem_iff]

end SameEntries

/-! ## Walks -/

/-- **A path is walked part by part**; what is left of the links that may be followed goes into the
second part. -/
theorem walk_append (links : Nat) (at_ : Place) (segs : List (List Char)) :
    ∃ left, ∀ more, t.walk true links at_ (segs ++ more) =
      (t.walk true links at_ segs).bind fun p => t.walk true left p more := by
  fun_induction Tree.walk t true links at_ segs with
  | case1 links at_ => exact ⟨links, fun more => rfl⟩
  | case2 links at_ s rest hplace =>
    refine ⟨links, fun more => ?_⟩
    rw [List.cons_append, walk, if_pos hplace]
    rfl
  | case3 links at_ s rest hplace hidle ih =>
    obtain ⟨left, hleft⟩ := ih
    refine ⟨left, fun more => ?_⟩
    rw [List.cons_append, walk, if_neg hplace, if_pos hidle, hleft]
  | case4 links at_ rest hplace hidle ih =>
    obtain ⟨left, hleft⟩ := ih
    refine ⟨left, fun more => ?_⟩
    rw [List.cons_append, walk, if_neg hplace, if_neg hidle, if_pos rfl, hleft]
  | case5 links at_ s rest hplace hidle hup next hnext =>
    refine ⟨links, fun more => ?_⟩
    rw [List.cons_append, walk, if_neg hplace, if_neg hidle, if_neg hup]
    simp only [next] at hnext
    simp only [hnext]
    rfl
  | case6 links at_ s rest hplace hidle hup next target hnext hlast => simp at hlast
  | case7 at_ s rest hplace hidle hup next target hnext hlast =>
    refine ⟨0, fun more => ?_⟩
    rw [List.cons_append, walk, if_neg hplace, if_neg hidle, if_neg hup]
    simp only [next] at hnext
    simp only [hnext, Bool.not_true, Bool.and_false, Bool.false_eq_true, if_false]
    rfl
  | case8 at_ s rest hplace hidle hup next target hnext hlast links start ih =>
    obtain ⟨left, hleft⟩ := ih
    refine ⟨left, fun more => ?_⟩
    rw [List.cons_append, walk, if_neg hplace, if_neg hidle, if_neg hup]
    simp only [next] at hnext
    simp only [hnext, Bool.not_true, Bool.and_false, Bool.false_eq_true, if_false]
    rw [← List.append_assoc]
    exact hleft more
  | case9 links at_ s rest hplace hidle hup next e hlink hnext ih =>
    obtain ⟨left, hleft⟩ := ih
    refine ⟨left, fun more => ?_⟩
    rw [List.cons_append, walk, if_neg hplace, if_neg hidle, if_neg hup]
    simp only [next] at hnext hleft
    cases e with
    | link target => exact absurd rfl (hlink target)
    | directory | file =>
      simp only [hnext]
      exact hleft more

/-- A walk sees of a tree what is at each place. -/
theorem walk_congr (h : ∀ q, t'.entryAt? q = t.entryAt? q) (followLast : Bool) (links : Nat)
    (at_ : Place) (segs : List (List Char)) :
    t'.walk followLast links at_ segs = t.walk followLast links at_ segs := by
  fun_induction Tree.walk t followLast links at_ segs with
  | case1 => simp only [walk]
  | case2 links at_ s rest hplace => rw [walk, h, if_pos hplace]
  | case3 links at_ s rest hplace hidle ih => rw [walk, h, if_neg hplace, if_pos hidle, ih]
  | case4 links at_ rest hplace hidle ih =>
    rw [walk, h, if_neg hplace, if_neg hidle, if_pos rfl, ih]
  | case5 links at_ s rest hplace hidle hup next hnext =>
    rw [walk, h, if_neg hplace, if_neg hidle, if_neg hup]
    simp only [next] at hnext
    simp only [h, hnext]
  | case6 links at_ s rest hplace hidle hup next target hnext hlast =>
    rw [walk, h, if_neg hplace, if_neg hidle, if_neg hup]
    simp only [next] at hnext
    simp only [h, hnext, hlast, if_true, next]
  | case7 at_ s rest hplace hidle hup next target hnext hlast =>
    rw [walk, h, if_neg hplace, if_neg hidle, if_neg hup]
    simp only [next] at hnext
    simp only [h, hnext, if_neg hlast]
  | case8 at_ s rest hplace hidle hup next target hnext hlast links start ih =>
    rw [walk, h, if_neg hplace, if_neg hidle, if_neg hup]
    simp only [next] at hnext
    simp only [h, hnext, if_neg hlast]
    exact ih
  | case9 links at_ s rest hplace hidle hup next e hlink hnext ih =>
    rw [walk, h, if_neg hplace, if_neg hidle, if_neg hup]
    simp only [next] at hnext ih
    cases e with
    | link target => exact absurd rfl (hlink target)
    | directory | file =>
      simp only [h, hnext]
      exact ih

theorem SameEntries.locate_eq (h : t.SameEntries t') (path : String) :
    t'.locate path = t.locate path := by
  have horigin : t'.origin path = t.origin path := by rw [origin, origin, h.workingDirectory]
  unfold locate
  rw [horigin, walk_congr h.entryAt?_eq]

theorem SameEntries.isDirectory_eq (h : t.SameEntries t') (path : String) :
    t'.isDirectory path = t.isDirectory path := by
  unfold isDirectory
  rw [h.locate_eq]
  cases t.locate path with
  | error cause => rfl
  | ok p => simp only [h.entryAt?_eq]

/-! ## Listings -/

/-- What is in the directory at a place, in the order in which it was made. -/
def listing (t : Tree) (p : Place) : List (Name × Entry) :=
  t.entries.filterMap fun (q, e) =>
    match q.getLast? with
    | some name => if q.dropLast = p then some (name, e) else none
    | none => none

theorem list_eq {path : String} (hpath : t.locate path = .ok p)
    (hdir : t.entryAt? p = some .directory) :
    t.list path = .ok (t.listing p) := by
  unfold list
  rw [hpath]
  simp only [bind, Except.bind, hdir, ne_eq, not_true_eq_false, if_false]
  rfl

/-- An entry is listed in its directory under its last name. -/
theorem listed_iff {entry : Place × Entry} {name : Name} {e : Entry} :
    (match entry.1.getLast? with
      | some name => if entry.1.dropLast = p then some (name, entry.2) else none
      | none => none) = some (name, e) ↔ entry = (p ++ [name], e) := by
  obtain ⟨q, e'⟩ := entry
  cases q using List.reverseRecOn with
  | nil => simp
  | append_singleton front last =>
    simp only [List.getLast?_concat, List.dropLast_concat]
    constructor
    · intro h
      split at h
      · next hp =>
        obtain ⟨rfl, rfl⟩ := Prod.mk.inj (Option.some_inj.1 h)
        rw [hp]
      · cases h
    · intro h
      obtain ⟨hq, rfl⟩ := Prod.mk.inj h
      obtain ⟨rfl, hlast⟩ := List.append_inj' hq rfl
      rw [if_pos rfl, List.singleton_inj.1 hlast]

/-- **A listing holds what there is.** -/
theorem mem_listing_iff (h : t.IsLawful) {name : Name} {e : Entry} :
    (name, e) ∈ t.listing p ↔ t.entryAt? (p ++ [name]) = some e := by
  rw [entryAt?_eq_some_iff h, listing, List.mem_filterMap]
  constructor
  · rintro ⟨entry, hentry, hlisted⟩
    rw [← listed_iff.1 hlisted]
    exact hentry
  · exact fun hentry => ⟨_, hentry, listed_iff.2 rfl⟩

/-- A listing holds everything once. -/
theorem listing_nodup (h : t.IsLawful) (p : Place) : (t.listing p).Nodup := by
  refine List.Nodup.filterMap (fun entry entry' listed hlisted hlisted' => ?_)
    (List.Nodup.of_map _ h.places)
  exact (listed_iff.1 hlisted).trans (listed_iff.1 hlisted').symm

theorem SameEntries.listing_perm (h : t.SameEntries t') (p : Place) :
    (t.listing p).Perm (t'.listing p) :=
  h.entries.filterMap _

/-! ## Files of a directory -/

theorem slash_notMem {name : List Char} (h : 0x2F ∉ nameOf name) : '/' ∉ name := by
  intro hslash
  exact h (List.mem_flatMap.2 ⟨'/', hslash, by decide⟩)

/-- The segments of a path with a name behind it: the name takes the place of an empty
last segment. -/
theorem segmentsOf_join {root : String} (hroot : root ≠ "") {name : String}
    (hname : '/' ∉ name.toList) :
    ∃ segs, (segmentsOf root = segs ∨ segmentsOf root = segs ++ [[]]) ∧
      segmentsOf (join root name) = segs ++ [name.toList] := by
  have hempty : root.isEmpty = false := by simpa using hroot
  have hsingle : name.toList.splitOn '/' = [name.toList] := List.splitOn_eq_singleton hname
  by_cases hlast : root.toList.getLast? = some '/'
  · obtain ⟨front, hfront⟩ := List.getLast?_eq_some_iff.1 hlast
    refine ⟨front.splitOn '/', .inr ?_, ?_⟩
    · rw [segmentsOf, hfront, List.splitOn_append_cons_self, List.splitOn_nil]
    · have hjoin : join root name = root ++ name := by simp [join, hlast]
      rw [segmentsOf, hjoin, String.toList_append, hfront, List.append_assoc, List.singleton_append,
        List.splitOn_append_cons_self, hsingle]
  · refine ⟨segmentsOf root, .inl rfl, ?_⟩
    have hjoin : join root name = root ++ "/" ++ name := by simp [join, hlast, hempty]
    have hslash : "/".toList = ['/'] := by decide
    rw [segmentsOf, hjoin, String.toList_append, String.toList_append, hslash, List.append_assoc,
      List.singleton_append, List.splitOn_append_cons_self, hsingle, segmentsOf]

theorem origin_join {root : String} (hroot : root ≠ "") (name : String) :
    t.origin (join root name) = t.origin root := by
  obtain ⟨c, cs, hcs⟩ :=
    List.exists_cons_of_ne_nil (fun hnil => hroot (String.toList_eq_nil_iff.1 hnil))
  have hhead : (join root name).toList.head? = root.toList.head? := by
    unfold join
    split <;> simp [String.toList_append, hcs]
  rw [origin, origin, hhead]

/-- **A file of a directory is read at the directory's path with its name behind it.** -/
theorem read_join {root name : String} {contents : List UInt8} (hroot : t.locate root = .ok p)
    (hdir : t.entryAt? p = some .directory) (hslash : '/' ∉ name.toList)
    (hidle : isIdle name.toList = false) (hup : name.toList ≠ ['.', '.'])
    (hfile : t.entryAt? (p ++ [nameOf name.toList]) = some (.file contents)) :
    t.read (join root name) = .ok contents := by
  have hne : root ≠ "" := by
    rintro rfl
    cases hroot
  have hempty : root.isEmpty = false := by simpa using hne
  rw [locate, hempty, if_neg Bool.false_ne_true] at hroot
  obtain ⟨segs, hsegs, hjoin⟩ := segmentsOf_join hne hslash
  obtain ⟨left, hwalk⟩ := walk_append (t := t) linkLimit (t.origin root) segs
  -- the walk to the directory may end in an empty segment, which stays where it is
  have hwalked : t.walk true linkLimit (t.origin root) segs = .ok p := by
    rcases hsegs with hsegs | hsegs
    · rwa [hsegs] at hroot
    · rw [hsegs, hwalk] at hroot
      cases hfront : t.walk true linkLimit (t.origin root) segs with
      | error cause =>
        rw [hfront] at hroot
        cases hroot
      | ok q =>
        rw [hfront] at hroot
        simp only [Except.bind, walk, isIdle, List.isEmpty_nil, Bool.true_or, if_true] at hroot
        split at hroot
        · cases hroot
        · exact hroot
  have hlocate : t.locate (join root name) = .ok (p ++ [nameOf name.toList]) := by
    have hfull : (join root name).isEmpty = false := by
      unfold join
      split <;> simp [hne]
    rw [locate, hfull, if_neg Bool.false_ne_true, origin_join hne, hjoin, hwalk, hwalked]
    simp only [Except.bind, walk, hdir, hidle, hfile, ne_eq, not_true_eq_false, Bool.false_eq_true,
      if_false, hup]
  unfold read
  rw [hlocate]
  simp only [bind, Except.bind, hfile]
  rfl

end Tree

end Stairway.Files
