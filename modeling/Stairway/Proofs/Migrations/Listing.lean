import Mathlib.Data.List.Nodup
import Stairway.Migrations.Open
import Stairway.Proofs.Files.Tree
import Stairway.Proofs.Migrations.Names
import Stairway.Proofs.Migrations.Neighbours
import Stairway.Proofs.Text.Utf8

/-!
# Listings in any order

The order in which a directory is listed is no one's to choose. A source holds the scripts of a
listing, each index by ascending version (`Indexes`), and this leaves it no freedom: sources that
hold the same scripts are equal (`Indexes.unique`). One step of scanning adds one script or finds
one that is there (`Indexes.insert`); a whole scan therefore succeeds exactly on scripts of which no
two have direction and version in common (`foldlM_insert`).

`scan_unordered` says this of a directory in a tree of files, where the scripts are the regular
files with the names of scripts, and says which file is read. What a failed scan reports does depend
on the order: it names two files.
-/

namespace Stairway

namespace ScriptIndex

variable {script : Script} {index index' : ScriptIndex} {v : Nat}

/-- Ascending, and no version twice. -/
def Ascending (index : ScriptIndex) : Prop :=
  List.Pairwise (fun a b : Script => a.version < b.version) index

theorem Ascending.eq_of_version (h : index.Ascending) {a b : Script} (ha : a ∈ index)
    (hb : b ∈ index) (hv : a.version = b.version) : a = b := by
  have hnodup : (List.map Script.version index).Nodup := List.pairwise_map.2 (h.imp Nat.ne_of_lt)
  exact List.inj_on_of_nodup_map hnodup ha hb hv

/-- Two indices with the same scripts are equal. -/
theorem Ascending.eq_of_perm (h : index.Ascending) (h' : index'.Ascending)
    (hperm : List.Perm index index') :
    index = index' :=
  List.Perm.eq_of_pairwise (fun _ _ _ _ hab hba => absurd hab (Nat.lt_asymm hba)) h h' hperm

theorem insert?_perm (h : index.insert? script = some index') :
    List.Perm index' (script :: index) := by
  induction index generalizing index' with
  | nil =>
    cases h
    exact List.Perm.refl _
  | cons t index ih =>
    rw [insert?] at h
    split at h
    · cases h
      exact List.Perm.refl _
    · split at h
      · cases h
      · obtain ⟨rest, hrest, rfl⟩ := Option.map_eq_some_iff.1 h
        exact ((ih hrest).cons t).trans (List.Perm.swap script t index)

theorem insert?_ascending (hindex : index.Ascending) (h : index.insert? script = some index') :
    index'.Ascending := by
  induction index generalizing index' with
  | nil =>
    cases h
    exact List.pairwise_singleton _ _
  | cons t index ih =>
    obtain ⟨ht, hrest⟩ := List.pairwise_cons.1 hindex
    rw [insert?] at h
    split at h
    · next hlt =>
      cases h
      refine List.pairwise_cons.2 ⟨fun u hu => ?_, hindex⟩
      rcases List.mem_cons.1 hu with rfl | hu
      · exact hlt
      · exact Nat.lt_trans hlt (ht u hu)
    · next hge =>
      split at h
      · cases h
      · next hne =>
        obtain ⟨rest, hinsert, rfl⟩ := Option.map_eq_some_iff.1 h
        refine List.pairwise_cons.2 ⟨fun u hu => ?_, ih hrest hinsert⟩
        rcases List.mem_cons.1 ((insert?_perm hinsert).mem_iff.1 hu) with rfl | hu
        · omega
        · exact ht u hu

/-- There is no place exactly for a version that is there. -/
theorem insert?_eq_none_iff (hindex : index.Ascending) :
    index.insert? script = none ↔ ∃ t ∈ index, t.version = script.version := by
  induction index with
  | nil => simp [insert?]
  | cons t index ih =>
    obtain ⟨ht, hrest⟩ := List.pairwise_cons.1 hindex
    rw [insert?]
    split
    · next hlt =>
      refine iff_of_false nofun ?_
      rintro ⟨u, hu, hv⟩
      rcases List.mem_cons.1 hu with rfl | hu
      · omega
      · have := ht u hu
        omega
    · split
      · next heq => exact iff_of_true rfl ⟨t, List.mem_cons_self, heq.symm⟩
      · next hne =>
        rw [Option.map_eq_none_iff, ih hrest]
        constructor
        · rintro ⟨u, hu, hv⟩
          exact ⟨u, List.mem_cons_of_mem t hu, hv⟩
        · rintro ⟨u, hu, hv⟩
          rcases List.mem_cons.1 hu with rfl | hu
          · exact absurd hv.symm hne
          · exact ⟨u, hu, hv⟩

theorem find?_eq_some_iff (hindex : index.Ascending) :
    index.find? v = some script ↔ script ∈ index ∧ script.version = v := by
  constructor
  · intro h
    exact ⟨List.mem_of_find?_eq_some h, by simpa using List.find?_some h⟩
  · rintro ⟨hmem, hv⟩
    obtain ⟨t, ht⟩ := Option.isSome_iff_exists.1 (Source.find?_isSome.2 ⟨script, hmem, hv⟩)
    have htv : t.version = v := by simpa using List.find?_some ht
    rwa [hindex.eq_of_version hmem (List.mem_of_find?_eq_some ht) (hv.trans htv.symm)]

theorem find?_eq_none_iff : index.find? v = none ↔ ∀ t ∈ index, t.version ≠ v := by
  simp [ScriptIndex.find?, List.find?_eq_none]

end ScriptIndex

/-- What a source holds at most one script of. -/
def Script.move (script : Script) : Direction × Nat := (script.direction, script.version)

namespace Source

variable {s s' : Source} {root : String}

/-! ## Scans -/

/-- A source holds these scripts, and no others. -/
structure Indexes (s : Source) (root : String) (scripts : List Script) : Prop where
  root_eq : s.root = root
  ascending : ∀ d, (s.index d).Ascending
  perm : ∀ d, List.Perm (s.index d) (scripts.filter (·.direction = d))

namespace Indexes

variable {scripts scripts' : List Script} {script : Script}

theorem mem_iff (h : s.Indexes root scripts) {d : Direction} :
    script ∈ s.index d ↔ script ∈ scripts ∧ script.direction = d := by
  rw [(h.perm d).mem_iff, List.mem_filter, decide_eq_true_eq]

/-- **What a source holds makes the source.** -/
theorem unique (h : s.Indexes root scripts) (h' : s'.Indexes root scripts')
    (hperm : scripts.Perm scripts') :
    s = s' := by
  have hindex : ∀ d, s.index d = s'.index d := fun d =>
    (h.ascending d).eq_of_perm (h'.ascending d)
      ((h.perm d).trans ((hperm.filter _).trans (h'.perm d).symm))
  have hroot : s.root = s'.root := h.root_eq.trans h'.root_eq.symm
  cases s
  cases s'
  obtain rfl := hroot
  obtain rfl := hindex .up
  obtain rfl := hindex .down
  rfl

theorem nodup (h : s.Indexes root scripts) : (scripts.map Script.move).Nodup := by
  have hone : ∀ d, (scripts.filter (·.direction = d)).Pairwise fun a b => a.version ≠
      b.version := fun d =>
    ((h.perm d).pairwise_iff fun hab => hab.symm).1 ((h.ascending d).imp Nat.ne_of_lt)
  have hup := List.pairwise_filter.1 (hone .up)
  have hdown := List.pairwise_filter.1 (hone .down)
  refine List.pairwise_map.2 ((hup.and hdown).imp fun {a b} hboth hsame => ?_)
  obtain ⟨hdirection, hversion⟩ := Prod.mk.inj hsame
  cases ha : a.direction with
  | up => exact hboth.1 (by simpa using ha) (by simpa using hdirection.symm.trans ha) hversion
  | down => exact hboth.2 (by simpa using ha) (by simpa using hdirection.symm.trans ha) hversion

theorem empty (root : String) : ({ root } : Source).Indexes root [] where
  root_eq := rfl
  ascending d := by cases d <;> exact List.Pairwise.nil
  perm d := by cases d <;> exact List.Perm.refl _

theorem withIndex (h : s.Indexes root scripts) {index : ScriptIndex} (hindex : index.Ascending)
    (hperm : List.Perm index (script :: s.index script.direction)) :
    (s.withIndex index script.direction).Indexes root (scripts ++ [script]) := by
  have hold : ∀ d, script.direction ≠ d →
      (s.withIndex index script.direction).index d = s.index d := by
    intro d hd
    cases hdirection : script.direction <;> cases d <;> first | rfl | exact absurd hdirection hd
  have hnew : (s.withIndex index script.direction).index script.direction = index := by
    cases script.direction <;> rfl
  refine ⟨?_, fun d => ?_, fun d => ?_⟩
  · rw [← h.root_eq]
    cases script.direction <;> rfl
  · by_cases hd : script.direction = d
    · rwa [← hd, hnew]
    · rw [hold d hd]
      exact h.ascending d
  · rw [List.filter_append]
    by_cases hd : script.direction = d
    · rw [← hd, hnew, List.filter_cons_of_pos (by simp), List.filter_nil]
      exact hperm.trans
        (((h.perm script.direction).cons script).trans (List.perm_append_singleton _ _).symm)
    · rw [hold d hd, List.filter_cons_of_neg (by simpa using hd), List.filter_nil, List.append_nil]
      exact h.perm d

/-- **One step of a scan**: a script is added, or one with its direction and version is there. -/
theorem insert (h : s.Indexes root scripts) (script : Script) :
    match s.insert script with
    | .ok s' => s'.Indexes root (scripts ++ [script])
    | .error _ => ∃ t ∈ scripts, t.move = script.move := by
  cases hinsert : (s.index script.direction).insert? script with
  | some index =>
    simp only [Source.insert, hinsert]
    exact h.withIndex (ScriptIndex.insert?_ascending (h.ascending _) hinsert)
      (ScriptIndex.insert?_perm hinsert)
  | none =>
    obtain ⟨t, ht, hv⟩ := (ScriptIndex.insert?_eq_none_iff (h.ascending _)).1 hinsert
    obtain ⟨hmem, hdirection⟩ := h.mem_iff.1 ht
    simp only [Source.insert, hinsert]
    exact ⟨t, hmem, Prod.ext hdirection hv⟩

end Indexes

/-- **A scan from some scripts on.** -/
theorem foldlM_insert {front : List Script} (h : s.Indexes root front) (scripts : List Script) :
    match scripts.foldlM Source.insert s with
    | .ok s' => s'.Indexes root (front ++ scripts)
    | .error _ => ¬ ((front ++ scripts).map Script.move).Nodup := by
  induction scripts generalizing s front with
  | nil =>
    rw [List.append_nil]
    exact h
  | cons script scripts ih =>
    have hstep := h.insert script
    rw [List.foldlM_cons]
    cases hinsert : s.insert script with
    | ok s' =>
      rw [hinsert] at hstep
      have hrest := ih hstep
      rwa [List.append_assoc] at hrest
    | error e =>
      rw [hinsert] at hstep
      obtain ⟨t, ht, hclash⟩ := hstep
      intro hnodup
      rw [List.map_append, List.map_cons, ← hclash] at hnodup
      exact List.disjoint_of_nodup_append hnodup (List.mem_map_of_mem ht) List.mem_cons_self

variable {entries entries' : List Entry}

theorem scan_eq_ok_iff :
    scan root entries = .ok s ↔ s.Indexes root (entries.filterMap (scriptOf? root)) := by
  have hscan := foldlM_insert (Indexes.empty root) (entries.filterMap (scriptOf? root))
  rw [List.nil_append] at hscan
  unfold scan
  constructor
  · intro h
    rwa [h] at hscan
  · intro h
    cases hfold : (entries.filterMap (scriptOf? root)).foldlM Source.insert { root } with
    | ok s' =>
      rw [hfold] at hscan
      rw [h.unique hscan (List.Perm.refl _)]
    | error e =>
      rw [hfold] at hscan
      exact absurd h.nodup hscan

theorem exists_scan_iff :
    (∃ s, scan root entries = .ok s) ↔
      ((entries.filterMap (scriptOf? root)).map Script.move).Nodup := by
  have hscan := foldlM_insert (Indexes.empty root) (entries.filterMap (scriptOf? root))
  rw [List.nil_append] at hscan
  constructor
  · rintro ⟨s, hs⟩
    exact (scan_eq_ok_iff.1 hs).nodup
  · intro hnodup
    cases hfold : (entries.filterMap (scriptOf? root)).foldlM Source.insert { root } with
    | ok s => exact ⟨s, hfold⟩
    | error e =>
      rw [hfold] at hscan
      exact absurd hnodup hscan

theorem scan_perm (h : entries.Perm entries') :
    scan root entries = .ok s ↔ scan root entries' = .ok s := by
  rw [scan_eq_ok_iff, scan_eq_ok_iff]
  have hscripts := h.filterMap (scriptOf? root)
  exact ⟨fun hs => ⟨hs.root_eq, hs.ascending, fun d => (hs.perm d).trans (hscripts.filter _)⟩,
    fun hs => ⟨hs.root_eq, hs.ascending, fun d => (hs.perm d).trans (hscripts.filter _).symm⟩⟩

/-! ## Directories -/

/-- A script in the directory at a place: a regular file with a name that says a direction and a
version. -/
structure ScriptAt (t : Files.Tree) (p : Files.Place) (d : Direction) (v : Nat) (name : String)
    (contents : List UInt8) : Prop where
  file : t.entryAt? (p ++ [Files.Tree.nameOf name.toList]) = some (.file contents)
  named : ∃ title, Migrations.FileName.parse? name = some ⟨v, title, d⟩

variable {t t' : Files.Tree} {p : Files.Place} {d : Direction} {v : Nat} {name : String}
  {contents : List UInt8}

theorem scriptOf?_entryOf_iff {listed : Files.Name × Files.Entry} {script : Script} :
    scriptOf? root (entryOf listed) = some script ↔
      ∃ name contents, listed = (Files.Tree.nameOf name.toList, .file contents) ∧
        Migrations.FileName.parse? name = some ⟨script.version, script.title, script.direction⟩ ∧
        script.path = Files.join root name := by
  obtain ⟨bytes, e⟩ := listed
  constructor
  · intro h
    cases e with
    | directory | link => simp [scriptOf?, entryOf] at h
    | file contents =>
      simp only [scriptOf?, entryOf, if_true, bind, Option.bind_eq_some_iff, Option.map_eq_some_iff,
        pure, Option.some_inj] at h
      obtain ⟨_, ⟨text, htext, rfl⟩, ⟨version, title, direction⟩, hparse, rfl⟩ := h
      refine ⟨String.ofList text, contents, ?_, hparse, rfl⟩
      rw [Text.Utf8.decode?_eq_some_iff.1 htext, String.toList_ofList]
      rfl
  · rintro ⟨name, contents, heq, hparse, hpath⟩
    obtain ⟨rfl, rfl⟩ := Prod.mk.inj heq
    have htext : Text.Utf8.decode? (Files.Tree.nameOf name.toList) = some name.toList :=
      Text.Utf8.decode?_eq_some_iff.2 rfl
    simp only [scriptOf?, entryOf, htext, Option.map_some, String.ofList_toList, if_true, bind,
      Option.bind_some, hparse, pure, ← hpath]

/-- The scripts of a listing, with the paths by which they are read. -/
def scriptsIn (t : Files.Tree) (p : Files.Place) (root : String) : List Script :=
  ((t.listing p).map entryOf).filterMap (scriptOf? root)

/-- The scripts of a listing are the scripts of the directory. -/
theorem mem_scriptsIn_iff (ht : t.IsLawful) {script : Script} : script ∈ scriptsIn t p root ↔
      ∃ name contents, t.entryAt? (p ++ [Files.Tree.nameOf name.toList]) = some (.file contents) ∧
        Migrations.FileName.parse? name = some ⟨script.version, script.title, script.direction⟩ ∧
        script.path = Files.join root name := by
  simp only [scriptsIn, List.filterMap_map, List.mem_filterMap, Function.comp_def,
    scriptOf?_entryOf_iff]
  constructor
  · rintro ⟨_, hlisted, name, contents, rfl, hparse, hpath⟩
    exact ⟨name, contents, (Files.Tree.mem_listing_iff ht).1 hlisted, hparse, hpath⟩
  · rintro ⟨name, contents, hfile, hparse, hpath⟩
    exact ⟨_, (Files.Tree.mem_listing_iff ht).2 hfile, name, contents, rfl, hparse, hpath⟩

theorem ScriptAt.mem (h : ScriptAt t p d v name contents) (ht : t.IsLawful) (root : String) :
    ∃ title, ⟨v, title, d, Files.join root name⟩ ∈ scriptsIn t p root := by
  obtain ⟨title, hparse⟩ := h.named
  exact ⟨title, (mem_scriptsIn_iff ht).2 ⟨name, contents, h.file, hparse, rfl⟩⟩

theorem join_injective (root : String) {name name' : String}
    (h : Files.join root name = Files.join root name') :
    name = name' := by
  unfold Files.join at h
  split at h
  · exact (String.append_right_inj _).1 h
  · exact (String.append_right_inj _).1 h

/-- A directory has no two scripts for one direction and version exactly if its listing has none. -/
theorem nodup_scriptsIn_iff (ht : t.IsLawful) : ((scriptsIn t p root).map Script.move).Nodup ↔
      ∀ d v name name' contents contents', ScriptAt t p d v name contents →
        ScriptAt t p d v name' contents' → name = name' := by
  constructor
  · intro hnodup d v name name' contents contents' h h'
    obtain ⟨title, hmem⟩ := h.mem ht root
    obtain ⟨title', hmem'⟩ := h'.mem ht root
    exact join_injective root
      (congrArg Script.path (List.inj_on_of_nodup_map hnodup hmem hmem' rfl))
  · intro hunique
    rw [scriptsIn, List.filterMap_map]
    refine List.pairwise_map.2
      (List.pairwise_filterMap.2 ((Files.Tree.listing_nodup ht p).imp_of_mem ?_))
    intro listed listed' hlisted hlisted' hne script hscript script' hscript' hmove
    obtain ⟨name, contents, rfl, hparse, -⟩ := scriptOf?_entryOf_iff.1 hscript
    obtain ⟨name', contents', rfl, hparse', -⟩ := scriptOf?_entryOf_iff.1 hscript'
    obtain ⟨hdirection, hversion⟩ := Prod.mk.inj hmove
    rw [Files.Tree.mem_listing_iff ht] at hlisted hlisted'
    obtain rfl :=
      hunique script.direction script.version name name' contents contents' ⟨hlisted, _, hparse⟩
      ⟨hlisted', _, hdirection ▸ hversion ▸ hparse'⟩
    rw [hlisted] at hlisted'
    cases hlisted'
    exact hne rfl

theorem fromDirectory_eq (hpath : t.locate root = .ok p) (hdir : t.entryAt? p = some .directory) :
    fromDirectory t root = scan root ((t.listing p).map entryOf) := by
  have hisdir : t.isDirectory root = true := by simp [Files.Tree.isDirectory, hpath, hdir]
  simp only [fromDirectory, hisdir, Files.Tree.list_eq hpath hdir, Bool.not_true,
    Bool.false_eq_true, if_false]

/-- The name of a script holds an underscore, so that it is no detour of a path. -/
theorem underscore_mem {f : Migrations.FileName} (h : Migrations.FileName.parse? name = some f) :
    '_' ∈ name.toList := by
  obtain ⟨digits, rest, hopens, -⟩ := Migrations.FileName.parseChars_eq_some_iff.1 h
  rw [hopens.text_eq]
  simp

theorem ScriptAt.read (h : ScriptAt t p d v name contents) (ht : t.IsLawful)
    (hpath : t.locate root = .ok p) (hdir : t.entryAt? p = some .directory) :
    t.read (Files.join root name) = .ok contents := by
  obtain ⟨title, hparse⟩ := h.named
  have hunderscore := underscore_mem hparse
  have hentry := (Files.Tree.entryAt?_eq_some_iff ht).1 h.file
  have hslash : '/' ∉ name.toList := Files.Tree.slash_notMem (ht.names _ hentry _ (by simp))
  refine Files.Tree.read_join hpath hdir hslash ?_ ?_ h.file
  · refine Bool.eq_false_iff.2 fun hidle => ?_
    simp only [Files.Tree.isIdle, Bool.or_eq_true, List.isEmpty_iff, decide_eq_true_eq] at hidle
    rcases hidle with hnil | hdot
    · simp [hnil] at hunderscore
    · rw [hdot] at hunderscore
      exact absurd hunderscore (by decide)
  · intro hdots
    rw [hdots] at hunderscore
    exact absurd hunderscore (by decide)

/-- What is read of a source that holds the scripts of a directory. -/
theorem readScript_of_indexes (ht : t.IsLawful)
    (h : s.Indexes root (scriptsIn t p root)) (now : Files.Tree) :
    (∀ name contents, ScriptAt t p d v name contents →
      s.readScript now d v = (now.readText (Files.join root name)).mapError .io) ∧
    ((∀ name contents, ¬ ScriptAt t p d v name contents) →
      s.readScript now d v = .error (.missing v)) := by
  constructor
  · intro name contents hscript
    obtain ⟨title, hmem⟩ := hscript.mem ht root
    have hfind := (ScriptIndex.find?_eq_some_iff (h.ascending d)).2 ⟨h.mem_iff.2 ⟨hmem, rfl⟩, rfl⟩
    simp only [readScript, script, hfind]
    rfl
  · intro hnone
    have hfind : (s.index d).find? v = none := by
      refine ScriptIndex.find?_eq_none_iff.2 fun script hscript hversion => ?_
      obtain ⟨hmem, hdirection⟩ := h.mem_iff.1 hscript
      obtain ⟨name, contents, hfile, hparse, -⟩ := (mem_scriptsIn_iff ht).1 hmem
      exact hnone name contents ⟨hfile, script.title, by rw [hparse, hversion, hdirection]⟩
    simp only [readScript, script, hfind]
    rfl

/-- **A directory makes the same source in whatever order it is listed**, or none in any order.
There is one exactly if no two regular files have names that say the same direction and version.
What is then read for a direction and a version is the one file whose name says them; without one
they are missing. -/
theorem scan_unordered (h : t.SameEntries t') (root : String) :
    (∀ s, fromDirectory t root = .ok s ↔ fromDirectory t' root = .ok s) ∧
    ∀ p, t.locate root = .ok p → t.entryAt? p = some .directory →
      ((∃ s, fromDirectory t root = .ok s) ↔
        ∀ d v name name' contents contents', ScriptAt t p d v name contents →
          ScriptAt t p d v name' contents' → name = name') ∧
      ∀ s, fromDirectory t root = .ok s → ∀ d v,
        (∀ name contents, ScriptAt t p d v name contents →
          t.read (Files.join root name) = .ok contents ∧
          ∀ now, s.readScript now d v = (now.readText (Files.join root name)).mapError .io) ∧
        ((∀ name contents, ¬ ScriptAt t p d v name contents) → ∀ now,
          s.readScript now d v = .error (.missing v)) := by
  constructor
  · intro s
    cases hisdir : t.isDirectory root with
    | false => simp [fromDirectory, h.isDirectory_eq, hisdir]
    | true =>
      obtain ⟨p, hpath, hdir⟩ : ∃ p, t.locate root = .ok p ∧ t.entryAt? p = some .directory := by
        unfold Files.Tree.isDirectory at hisdir
        split at hisdir
        · next p hpath => exact ⟨p, hpath, by simpa using hisdir⟩
        · cases hisdir
      rw [fromDirectory_eq hpath hdir,
        fromDirectory_eq ((h.locate_eq root).trans hpath) ((h.entryAt?_eq p).trans hdir)]
      exact scan_perm ((h.listing_perm p).map entryOf)
  · intro p hpath hdir
    rw [fromDirectory_eq hpath hdir]
    refine ⟨exists_scan_iff.trans (nodup_scriptsIn_iff h.lawful), fun s hs d v => ?_⟩
    have hread := readScript_of_indexes (d := d) (v := v) h.lawful (scan_eq_ok_iff.1 hs)
    exact ⟨fun name contents hscript =>
        ⟨hscript.read h.lawful hpath hdir, fun now => (hread now).1 name contents hscript⟩,
      fun hnone now => (hread now).2 hnone⟩

/-- A directory `/m` with the two scripts of version 1, a directory and a link with names of
scripts, and a file whose name is no text. -/
def mixed : Files.Tree where
  entries :=
    [([Files.Tree.nameOf ['m']], .directory),
      ([Files.Tree.nameOf ['m'], Files.Tree.nameOf "01_a.up.sql".toList],
        .file (Text.Utf8.encode "UP;".toList)),
      ([Files.Tree.nameOf ['m'], Files.Tree.nameOf "2_b.up.sql".toList], .directory),
      ([Files.Tree.nameOf ['m'], Files.Tree.nameOf "3_c.up.sql".toList], .link "01_a.up.sql"),
      ([Files.Tree.nameOf ['m'], 0xFF :: Files.Tree.nameOf "4_d.up.sql".toList], .file []),
      ([Files.Tree.nameOf ['m'], Files.Tree.nameOf "1_a.down.sql".toList],
        .file (Text.Utf8.encode "DOWN;".toList))]

theorem mixed_lawful : mixed.IsLawful := ⟨by decide, by decide⟩

theorem mixed_scripts : scriptsIn mixed [Files.Tree.nameOf ['m']] "/m" =
    [⟨1, "a", .up, "/m/01_a.up.sql"⟩, ⟨1, "a", .down, "/m/1_a.down.sql"⟩] := by decide

theorem mixed_locate : mixed.locate "/m" = .ok [Files.Tree.nameOf ['m']] := by
  have hsegments : Files.Tree.segmentsOf "/m" = [[], ['m']] := by decide
  have hm : mixed.entryAt? ([] ++ [Files.Tree.nameOf ['m']]) = some .directory := by decide
  have horigin : mixed.origin "/m" = [] := by decide
  rw [Files.Tree.locate, if_neg (by decide), hsegments, horigin]
  -- the empty segment in front of the slash, then the name
  rw [Files.Tree.walk, if_neg (by decide), if_pos (by decide), Files.Tree.walk, if_neg (by decide),
    if_neg (by decide), if_neg (by decide)]
  simp only [hm]
  rw [Files.Tree.walk]
  rfl

theorem scan_unordered_mixed :
    mixed.SameEntries { mixed with entries := mixed.entries.reverse } ∧
    ∃ s, fromDirectory mixed "/m" = .ok s ∧
      fromDirectory { mixed with entries := mixed.entries.reverse } "/m" = .ok s ∧
      s.readScript mixed .up 1 = .ok "UP;" ∧ s.readScript mixed .up 2 = .error (.missing 2) := by
  have hsame : mixed.SameEntries { mixed with entries := mixed.entries.reverse } :=
    ⟨mixed_lawful, (List.reverse_perm _).symm, rfl⟩
  obtain ⟨horder, hdirectory⟩ := scan_unordered hsame "/m"
  obtain ⟨-, hread⟩ := hdirectory _ mixed_locate (by decide)
  have hs : ∃ s, fromDirectory mixed "/m" = .ok s := by
    rw [fromDirectory_eq mixed_locate (by decide), exists_scan_iff, ← scriptsIn, mixed_scripts]
    decide
  obtain ⟨s, hs⟩ := hs
  refine ⟨hsame, s, hs, (horder s).1 hs, ?_, ?_⟩
  · obtain ⟨hcontents, hscript⟩ :=
      (hread s hs .up 1).1 "01_a.up.sql" (Text.Utf8.encode "UP;".toList) ⟨by decide, "a", by decide⟩
    rw [hscript, Files.Tree.readText, hcontents]
    decide
  · refine (hread s hs .up 2).2 (fun name contents hscript => ?_) mixed
    obtain ⟨title, hmem⟩ := hscript.mem mixed_lawful "/m"
    rw [mixed_scripts] at hmem
    simp at hmem

end Source

end Stairway
