import Stairway.Proofs.Postgres.Standing

/-!
# What a statement changes

One client's statement touches what that client holds, its own transaction and its own locks
(`Frame`), and the tables only when it is committed. Nobody gets a lock that somebody else holds
(`Exclusive`), and what a transaction leaves recorded is the last row that it wrote
(`rowIn_publish`).
-/

namespace Stairway.Postgres

/-- What a session takes its transaction to be, and what the server keeps of it. -/
def Draft.Matches (table : String) : Draft → Option (List Write) → Prop
  | closed, tx => tx = none
  | blank, tx => ∃ ws, tx = some ws
  | row r, tx => ∃ ws, tx = some (ws ++ [(table, r)])

/-- Whether a statement is a write of the transaction that it stands in. -/
def Statement.isWrite : Statement → Bool
  | truncate _ | insert _ _ => true
  | _ => false

/-- Whether a statement creates or writes a version table, or is a script. -/
def Statement.touches : Statement → Bool
  | createTable _ | truncate _ | insert _ _ | commit | script .. => true
  | _ => false

namespace Server

/-! ## Transactions by client -/

section Lookup

variable {β : Type} {l : List (ClientId × β)} {i j : ClientId}

theorem lookup_filter_self : (l.filter (·.1 ≠ i)).lookup i = none := by
  rw [List.lookup_eq_none_iff]
  intro x hx
  have hne : x.1 ≠ i := by simpa using (List.mem_filter.1 hx).2
  simpa using Ne.symm hne

theorem lookup_filter_ne (h : j ≠ i) : (l.filter (·.1 ≠ i)).lookup j = l.lookup j := by
  induction l with
  | nil => rfl
  | cons x rest ih =>
    obtain ⟨c, b⟩ := x
    by_cases hc : c = i
    · have hjc : (j == c) = false := by simpa [hc] using h
      rw [List.filter_cons_of_neg (by simpa using hc), ih, List.lookup_cons, hjc]
    · rw [List.filter_cons_of_pos (by simpa using hc), List.lookup_cons, List.lookup_cons, ih]

theorem lookup_map_self {b₀ : β} (b : β) (h : l.lookup i = some b₀) :
    (l.map fun (c, old) => if c = i then (c, b) else (c, old)).lookup i = some b := by
  induction l with
  | nil => cases h
  | cons x rest ih =>
    obtain ⟨c, old⟩ := x
    by_cases hc : c = i
    · simp [hc]
    · have hic : (i == c) = false := by simpa using Ne.symm hc
      rw [List.lookup_cons, hic] at h
      simp [hc, List.lookup_cons, hic, ih h]

theorem lookup_map_ne (b : β) (h : j ≠ i) :
    (l.map fun (c, old) => if c = i then (c, b) else (c, old)).lookup j = l.lookup j := by
  induction l with
  | nil => rfl
  | cons x rest ih =>
    obtain ⟨c, old⟩ := x
    by_cases hc : c = i
    · have hjc : (j == i) = false := by simpa using h
      simp [hc, List.lookup_cons, hjc, ih]
    · simp [hc, List.lookup_cons, ih]

end Lookup

variable {s : Server} {i : ClientId} {table : String}

theorem write_lookup {ws : List Write} (w : Write) (h : s.transactions.lookup i = some ws) :
    (s.write i w).transactions.lookup i = some (ws ++ [w]) := by
  simp only [write, h]
  exact lookup_map_self _ h

@[simp] theorem write_locks (w : Write) : (s.write i w).locks = s.locks := by
  unfold write
  split <;> rfl

theorem write_tables (w : Write) (h : ∃ ws, s.transactions.lookup i = some ws) :
    (s.write i w).tables = s.tables := by
  obtain ⟨ws, hws⟩ := h
  simp [write, hws]

/-! ## Frames -/

/-- Nothing of the other clients changes. -/
structure Frame (i : ClientId) (s s' : Server) : Prop where
  transactions : ∀ j, j ≠ i → s'.transactions.lookup j = s.transactions.lookup j
  locks : ∀ j key, j ≠ i → s'.locks.count (j, key) = s.locks.count (j, key)

theorem Frame.refl (i : ClientId) (s : Server) : Frame i s s := ⟨fun _ _ => rfl, fun _ _ _ => rfl⟩

theorem frame_endTransaction : Frame i s (s.endTransaction i) :=
  ⟨fun _ hj => lookup_filter_ne hj, fun _ _ _ => rfl⟩

theorem frame_write (w : Write) : Frame i s (s.write i w) where
  transactions j hj := by
    unfold write
    split
    · rfl
    · exact lookup_map_ne _ hj
  locks j key _ := by rw [write_locks]

theorem frame_apply (q : Statement) : Frame i s (s.apply i q).2 := by
  cases q with
  | tryLock key =>
    simp only [apply]
    split
    · exact ⟨fun _ _ => rfl, fun _ _ _ => rfl⟩
    · split
      · exact .refl i s
      · refine ⟨fun _ _ => rfl, fun j k hj => ?_⟩
        have hne : ((i, key) == (j, k)) = false := by simpa using fun h => absurd h.symm hj
        simp [List.count_append, List.count_cons, hne]
  | unlock key =>
    simp only [apply]
    split
    · refine ⟨fun _ _ => rfl, fun j k hj => ?_⟩
      have hne : (j, k) ≠ (i, key) := fun h => hj (congrArg Prod.fst h)
      exact List.count_erase_of_ne hne
    · exact .refl i s
  | createTable t =>
    simp only [apply]
    split
    · exact .refl i s
    · exact ⟨fun _ _ => rfl, fun _ _ _ => rfl⟩
  | selectRow t => exact .refl i s
  | beginTransaction =>
    refine ⟨fun j hj => ?_, fun _ _ _ => rfl⟩
    have hne : (j == i) = false := by simpa using hj
    simp [apply, List.lookup_append, List.lookup_cons, hne]
  | truncate t => exact frame_write _
  | insert t row => exact frame_write _
  | commit => exact ⟨fun _ hj => lookup_filter_ne hj, fun _ _ _ => rfl⟩
  | rollback => exact frame_endTransaction
  | script multi text => exact .refl i s

/-- No client's transaction, lock or table changes. -/
structure Idle (s s' : Server) : Prop where
  locks : s'.locks = s.locks
  transactions : s'.transactions = s.transactions
  tables : s'.tables = s.tables

theorem Idle.frame {s' : Server} (h : s.Idle s') : s.Frame i s' :=
  ⟨fun _ _ => by rw [h.transactions], fun _ _ _ => by rw [h.locks]⟩

theorem idle_connect (s : Server) (now : Instant) (user database password : String)
    (encrypted : Bool) :
    s.Idle (s.connect now user database password encrypted).2 := by
  unfold connect
  split
  · exact ⟨rfl, rfl, rfl⟩
  · split
    · exact ⟨rfl, rfl, rfl⟩
    · dsimp only
      split <;> exact ⟨rfl, rfl, rfl⟩

/-! ## The lock -/

/-- No lock is held by two clients. -/
def Exclusive (s : Server) : Prop :=
  ∀ i j key, (i, key) ∈ s.locks → (j, key) ∈ s.locks → i = j

theorem not_isHeldByOther {key : Int} (h : ¬ s.isHeldByOther i key = true) :
    ∀ j, (j, key) ∈ s.locks → j = i := by
  intro j hj
  unfold isHeldByOther at h
  rw [List.any_eq_true] at h
  exact Decidable.byContradiction fun hne => h ⟨(j, key), hj, by simpa using hne⟩

theorem Exclusive.apply (h : s.Exclusive) (q : Statement) : (s.apply i q).2.Exclusive := by
  cases q with
  | tryLock key =>
    simp only [Server.apply]
    split
    · exact h
    · split
      · exact h
      · next hfree =>
        have hown := not_isHeldByOther hfree
        intro a b k ha hb
        simp only [List.mem_append, List.mem_singleton, Prod.mk.injEq] at ha hb
        rcases ha with ha | ⟨rfl, rfl⟩
        · rcases hb with hb | ⟨rfl, rfl⟩
          · exact h a b k ha hb
          · exact hown a ha
        · rcases hb with hb | ⟨rfl, -⟩
          · exact (hown b hb).symm
          · rfl
  | unlock key =>
    simp only [Server.apply]
    split
    · exact fun a b k ha hb => h a b k (List.mem_of_mem_erase ha) (List.mem_of_mem_erase hb)
    · exact h
  | createTable t =>
    simp only [Server.apply]
    split <;> exact h
  | truncate t =>
    intro a b k
    simpa [Server.apply] using h a b k
  | insert t row =>
    intro a b k
    simpa [Server.apply] using h a b k
  | selectRow | beginTransaction | commit | rollback | script => exact h

/-! ## What is recorded -/

/-- The row of a table as it was last committed. -/
def rowIn (s : Server) (table : String) : Option Row := (s.tables.lookup table).join

theorem lookup_setRow_self (tables : List (String × Option Row)) (r : Option Row) :
    (setRow tables (table, r)).lookup table = some r := by
  unfold setRow
  split
  · next hsome =>
    simp only at hsome ⊢
    induction tables with
    | nil => cases hsome
    | cons x rest ih =>
      obtain ⟨t, old⟩ := x
      by_cases ht : t = table
      · subst ht
        simp
      · have hne : (table == t) = false := by simpa using Ne.symm ht
        rw [List.lookup_cons, hne] at hsome
        simpa [ht, List.lookup_cons, hne] using ih hsome
  · next hnone =>
    have hnone' : tables.lookup table = none := Option.not_isSome_iff_eq_none.1 hnone
    simp [List.lookup_append, hnone']

/-- **A transaction leaves recorded what it wrote last.** -/
theorem rowIn_publish {ws : List Write} {r : Option Row}
    (h : s.transactions.lookup i = some (ws ++ [(table, r)])) : (s.publish i).rowIn table = r := by
  have htables : (s.publish i).tables = setRow (ws.foldl setRow s.tables) (table, r) := by
    simp [publish, h]
  rw [rowIn, htables, lookup_setRow_self]
  rfl

/-- Nothing but a commit changes what is recorded. -/
theorem rowIn_apply {q : Statement} (hq : q ≠ .commit)
    (hopen : q.isWrite → ∃ ws, s.transactions.lookup i = some ws) :
    (s.apply i q).2.rowIn table = s.rowIn table := by
  cases q with
  | tryLock key =>
    simp only [apply]
    split
    · rfl
    · split <;> rfl
  | unlock key =>
    simp only [apply]
    split <;> rfl
  | createTable t =>
    simp only [apply]
    split
    · rfl
    · next hnew =>
      have hnone : s.tables.lookup t = none := Option.not_isSome_iff_eq_none.1 hnew
      by_cases ht : table = t
      · subst ht
        simp [rowIn, List.lookup_append, hnone]
      · have hne : (table == t) = false := by simpa using ht
        simp [rowIn, List.lookup_append, List.lookup_cons, hne]
  | truncate t => simp only [apply, rowIn, write_tables _ (hopen rfl)]
  | insert t row => simp only [apply, rowIn, write_tables _ (hopen rfl)]
  | commit => exact absurd rfl hq
  | selectRow | beginTransaction | rollback | script => rfl

theorem apply_tables {q : Statement} (hq : q.touches = false) :
    (s.apply i q).2.tables = s.tables := by
  cases q with
  | tryLock key =>
    simp only [apply]
    split
    · rfl
    · split <;> rfl
  | unlock key =>
    simp only [apply]
    split <;> rfl
  | selectRow | beginTransaction | rollback => rfl
  | _ => cases hq

@[simp] theorem spoil_tables (q : Statement) : (s.spoil i q).tables = s.tables := by
  cases q <;> rfl

/-- Outside a transaction a client sees what is recorded. -/
theorem rowOf_eq (h : s.transactions.lookup i = none) : s.rowOf i table = s.rowIn table := by
  simp [rowOf, h, rowIn]

end Server

end Stairway.Postgres
