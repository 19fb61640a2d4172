import Stairway.Proofs.Migrations.Neighbours
import Stairway.Proofs.Postgres.Undisturbed

/-!
# What a session would read next

`Glimpse` is the row that a session would read if it asked now, be it the recorded one or one that
its own transaction has written, and whether it owes a rollback and is connected. `glancing` is a
protocol in these terms for one session that has a server for itself: any statement may be refused,
for one of a list of reasons, and no row with a version beyond 64 bits with a sign is ever written.

Of each program of the engine it is said what the session would read where the program has
succeeded, and nothing where it has not (`glance_writeVersion` up to `glance_migrateTo`). The row
after a migration is that of the last step of a plan, and so that of its target (`keeps_plan`), but
for targets that the version table cannot hold: those are recorded as none.
-/

namespace Stairway.Postgres

open Program (onSuccess obeys_andThen)

/-! ## Rows -/

/-- Whether a row's version is below 2⁶³. -/
def Bounded (row : Option Row) : Prop := ∀ r, row = some r → r.version < 0x8000000000000000

/-- Whether a statement reads and writes no version table but this one, and no row that is not
bounded. -/
def Statement.Permitted (table : String) : Statement → Prop
  | .selectRow t | .truncate t => t = table
  | .insert t row => t = table ∧ row.version < 0x8000000000000000
  | _ => True

/-- Whether all rows that a server keeps are bounded. -/
structure Server.Bounded (s : Server) : Prop where
  tables : ∀ w ∈ s.tables, Postgres.Bounded w.2
  drafts : ∀ tx ∈ s.transactions, ∀ w ∈ tx.2, Postgres.Bounded w.2

namespace Server

variable {s : Server} {i : ClientId} {table : String}

theorem bounded_none : Postgres.Bounded none := nofun

theorem mem_of_lookup {β : Type} {l : List (String × β)} {b : β} (h : l.lookup table = some b) :
    (table, b) ∈ l := by
  induction l with
  | nil => cases h
  | cons x rest ih =>
    obtain ⟨t, b'⟩ := x
    rw [List.lookup_cons] at h
    split at h
    · next heq =>
      cases h
      rw [beq_iff_eq.1 heq]
      exact List.mem_cons_self
    · exact List.mem_cons_of_mem _ (ih h)

theorem Bounded.own (h : s.Bounded) : ∀ w ∈ (s.transactions.lookup i).getD [],
    Postgres.Bounded w.2 := by
  intro w hw
  cases htx : s.transactions.lookup i with
  | none =>
    rw [htx] at hw
    cases hw
  | some ws =>
    rw [htx] at hw
    obtain ⟨l₁, l₂, heq, -⟩ := List.lookup_eq_some_iff.1 htx
    exact h.drafts (i, ws) (by rw [heq]; simp) w hw

/-- What a client reads is bounded. -/
theorem Bounded.rowOf (h : s.Bounded) : Postgres.Bounded (s.rowOf i table) := by
  unfold Server.rowOf
  cases hown : ((s.transactions.lookup i).getD []).reverse.lookup table with
  | some row =>
    have hmem := mem_of_lookup hown
    simpa using h.own _ (List.mem_reverse.1 hmem)
  | none =>
    cases htable : s.tables.lookup table with
    | some row => simpa using h.tables _ (mem_of_lookup htable)
    | none => exact bounded_none

theorem bounded_setRow {tables : List (String × Option Row)}
    (h : ∀ w ∈ tables, Postgres.Bounded w.2) {w : Write} (hw : Postgres.Bounded w.2) :
    ∀ v ∈ setRow tables w, Postgres.Bounded v.2 := by
  unfold setRow
  intro v hv
  split at hv
  · obtain ⟨u, hu, rfl⟩ := List.mem_map.1 hv
    by_cases ht : u.1 = w.1
    · simpa [ht] using hw
    · simpa [ht] using h u hu
  · rcases List.mem_append.1 hv with hv | hv
    · exact h v hv
    · rwa [List.mem_singleton.1 hv]

theorem bounded_foldl {ws : List Write} (hws : ∀ w ∈ ws, Postgres.Bounded w.2) :
    ∀ {tables : List (String × Option Row)}, (∀ w ∈ tables, Postgres.Bounded w.2) →
      ∀ v ∈ ws.foldl setRow tables, Postgres.Bounded v.2 := by
  induction ws with
  | nil => exact fun h => h
  | cons w rest ih =>
    intro tables h
    exact ih (fun w' hw' => hws w' (List.mem_cons_of_mem w hw'))
      (bounded_setRow h (hws w List.mem_cons_self))

theorem Bounded.write (h : s.Bounded) {w : Write} (hw : Postgres.Bounded w.2) :
    (s.write i w).Bounded := by
  unfold Server.write
  split
  · exact ⟨bounded_setRow h.tables hw, h.drafts⟩
  · next ws hws =>
    refine ⟨h.tables, ?_⟩
    intro tx htx v hv
    obtain ⟨old, hold, rfl⟩ := List.mem_map.1 htx
    by_cases hc : old.1 = i
    · simp only [hc, if_true] at hv
      rcases List.mem_append.1 hv with hv | hv
      · exact h.own v (by rwa [hws])
      · rwa [List.mem_singleton.1 hv]
    · simp only [hc, if_false] at hv
      exact h.drafts old hold v hv

theorem Bounded.endTransaction (h : s.Bounded) : (s.endTransaction i).Bounded :=
  ⟨h.tables, fun tx htx => h.drafts tx (List.mem_filter.1 htx).1⟩

theorem Bounded.spoil (h : s.Bounded) (q : Statement) : (s.spoil i q).Bounded := by
  cases q with
  | commit => exact h.endTransaction
  | _ => exact h

theorem Bounded.apply (h : s.Bounded) {q : Statement} (hq : q.Permitted table) :
    (s.apply i q).2.Bounded := by
  cases q with
  | tryLock key =>
    simp only [Server.apply]
    split
    · exact ⟨h.tables, h.drafts⟩
    · split
      · exact h
      · exact ⟨h.tables, h.drafts⟩
  | unlock key =>
    simp only [Server.apply]
    split
    · exact ⟨h.tables, h.drafts⟩
    · exact h
  | createTable t =>
    simp only [Server.apply]
    split
    · exact h
    · refine ⟨fun w hw => ?_, h.drafts⟩
      rcases List.mem_append.1 hw with hw | hw
      · exact h.tables w hw
      · rw [List.mem_singleton.1 hw]
        exact bounded_none
  | beginTransaction =>
    refine ⟨h.tables, fun tx htx => ?_⟩
    rcases List.mem_append.1 htx with htx | htx
    · exact h.drafts tx htx
    · rw [List.mem_singleton.1 htx]
      exact fun _ hw => absurd hw List.not_mem_nil
  | truncate t => exact h.write bounded_none
  | insert t row =>
    refine h.write ?_
    rintro _ ⟨⟩
    exact hq.2
  | commit => exact ⟨bounded_foldl h.own h.tables, h.endTransaction.drafts⟩
  | rollback => exact h.endTransaction
  | selectRow | script => exact h

/-! ## What a statement does to what its client reads -/

theorem lookup_setRow_ne (tables : List (String × Option Row)) {t : String} (r : Option Row)
    (h : t ≠ table) :
    (setRow tables (t, r)).lookup table = tables.lookup table := by
  have hne : (table == t) = false := by simpa using Ne.symm h
  have hmap : (tables.map fun old => if old.1 = t then (old.1, r) else old).lookup table =
      tables.lookup table := by
    induction tables with
    | nil => rfl
    | cons x rest ih =>
      obtain ⟨t', old⟩ := x
      by_cases ht : t' = t
      · simp [ht, List.lookup_cons, hne, ih]
      · simp [ht, List.lookup_cons, ih]
  unfold setRow
  split
  · exact hmap
  · simp [List.lookup_append, List.lookup_cons, hne]

/-- Writes that are published are read as they were before. -/
theorem lookup_foldl (ws : List Write) : ∀ tables : List (String × Option Row),
    (ws.foldl setRow tables).lookup table = (ws.reverse.lookup table).or (tables.lookup table) := by
  induction ws with
  | nil => exact fun tables => rfl
  | cons w rest ih =>
    intro tables
    obtain ⟨t, r⟩ := w
    rw [List.foldl_cons, ih, List.reverse_cons, List.lookup_append, Option.or_assoc]
    congr 1
    by_cases ht : t = table
    · subst ht
      rw [lookup_setRow_self]
      simp
    · have hne : (table == t) = false := by simpa using Ne.symm ht
      rw [lookup_setRow_ne tables r ht]
      simp [List.lookup_cons, hne]

/-- A client reads what it has written last, in a transaction or not. -/
theorem rowOf_write (r : Option Row) : (s.write i (table, r)).rowOf i table = r := by
  unfold Server.rowOf
  cases htx : s.transactions.lookup i with
  | none =>
    have hwrite : s.write i (table, r) = { s with tables := setRow s.tables (table, r) } := by
      simp [Server.write, htx]
    rw [hwrite]
    simp [htx, lookup_setRow_self]
  | some ws =>
    rw [write_lookup _ htx]
    simp

/-- What a client reads after a statement, if it read `row` before. -/
def Shows (row : Option Row) : (q : Statement) → q.Reply → Option Row → Prop
  | .selectRow _, reply, after => reply = row ∧ after = row
  | .truncate _, _, after => after = none
  | .insert _ new, _, after => after = some new
  | .rollback, _, _ => True
  | _, _, after => after = row

/-- **A client sees its own statements**, be they committed or not. -/
theorem shows_apply {q : Statement} (hq : q.Permitted table) :
    Shows (s.rowOf i table) q (s.apply i q).1 ((s.apply i q).2.rowOf i table) := by
  cases q with
  | tryLock key =>
    simp only [Server.apply]
    repeat' split
    all_goals rfl
  | unlock key =>
    simp only [Server.apply]
    split <;> rfl
  | createTable t =>
    simp only [Server.apply]
    split
    · rfl
    · next hnew =>
      have hnone : s.tables.lookup t = none := Option.not_isSome_iff_eq_none.1 hnew
      by_cases ht : table = t
      · subst ht
        cases hown : ((s.transactions.lookup i).getD []).reverse.lookup table with
        | none => simp [Shows, Server.rowOf, List.lookup_append, hnone, hown]
        | some row => simp [Shows, Server.rowOf, hown]
      · have hne : (table == t) = false := by simpa using ht
        simp [Shows, Server.rowOf, List.lookup_append, List.lookup_cons, hne]
  | selectRow t =>
    obtain rfl : t = table := hq
    exact ⟨rfl, rfl⟩
  | beginTransaction =>
    cases htx : s.transactions.lookup i with
    | none => simp [Shows, Server.apply, Server.rowOf, endTransaction, List.lookup_append, htx]
    | some ws => simp [Shows, Server.apply, Server.rowOf, endTransaction, List.lookup_append, htx]
  | truncate t =>
    obtain rfl : t = table := hq
    exact rowOf_write none
  | insert t row =>
    obtain ⟨rfl, -⟩ := hq
    exact rowOf_write (some row)
  | commit =>
    have hended : (s.transactions.filter (·.1 ≠ i)).lookup i = none := lookup_filter_self
    simp only [Shows, Server.apply, Server.publish, Server.rowOf, endTransaction, hended,
      Option.getD_none, List.reverse_nil, List.lookup_nil, Option.none_or, lookup_foldl]
  | rollback => trivial
  | script multi text => rfl

end Server

/-! ## The protocol -/

/-- What a session would read next, and what it knows of itself. -/
structure Glimpse where
  row : Option Row
  owes : Bool
  connected : Bool

def Request.Permitted (table : String) : Request → Prop
  | .statement q => q.Permitted table
  | .connect _ | .disconnect => False
  | _ => True

/-- What an answer tells. A statement that is refused tells nothing but its reason. -/
def Glimpse.Leads (reasons : List String) (g : Glimpse) : (r : Request) → r.Answer → Glimpse → Prop
  | .statement q, .ok reply, h =>
    Server.Shows g.row q reply h.row ∧ Bounded h.row ∧ h.owes = g.owes ∧ h.connected = g.connected
  | .statement _, .error e, _ => ∃ text ∈ reasons, e = .refused text
  | .takeOwedRollback, owed, h => owed = g.owes ∧ h = { g with owes := false }
  | .oweRollback, _, h => h = { g with owes := true }
  | .isConnected, yes, h => yes = g.connected ∧ h = g
  | _, _, h => h = g

/-- One session that has a server for itself, which refuses statements for these reasons. -/
def glancing (p : Plant) (reasons : List String) : Protocol interface Glimpse where
  allows _ r := r.Permitted p.table
  leads g r a h := g.Leads reasons r a h

/-- What is seen of a site. -/
structure Glimpsed (p : Plant) (reasons : List String) (g : Glimpse) (s : Site) : Prop where
  row : g.row = s.server.rowOf s.session.client p.table
  owes : g.owes = s.session.owesRollback
  connected : g.connected = s.session.isConnected
  bounded : s.server.Bounded
  rules : ∀ r ∈ s.server.rules, ∀ text, r.failure = some text → text ∈ reasons
  verdict : ∀ text, (s.server.verdicts.lookup s.session.client).join = some text → text ∈ reasons

variable {p : Plant} {reasons : List String}

/-- A statement is answered. -/
theorem Glimpsed.answer {g : Glimpse} {s : Site} (h : Glimpsed p reasons g s) {q : Statement}
    (hq : q.Permitted p.table) :
    ∃ g', g.Leads reasons (.statement q) (s.server.finish s.session.client q).1 g' ∧
      Glimpsed p reasons g' { s with server := (s.server.finish s.session.client q).2 } := by
  unfold Server.finish
  cases hverdict : (s.server.verdicts.lookup s.session.client).join with
  | some text =>
    refine ⟨⟨(s.server.spoil s.session.client q).rowOf s.session.client p.table, _, _⟩,
      ⟨text, h.verdict text hverdict, rfl⟩, rfl, rfl, rfl, h.bounded.spoil q, ?_, ?_⟩
    · cases q <;> exact h.rules
    · cases q <;> exact h.verdict
  | none =>
    have hbounded := h.bounded.apply (i := s.session.client) hq
    have hshows := Server.shows_apply (s := s.server) (i := s.session.client) hq
    rw [← h.row] at hshows
    refine ⟨⟨_, g.owes, g.connected⟩, ⟨hshows, hbounded.rowOf, rfl, rfl⟩, rfl, h.owes, h.connected,
      hbounded, ?_, ?_⟩
    · rw [Server.apply_rules]
      exact h.rules
    · rw [Server.apply_verdicts]
      exact h.verdict

/-- A statement is on its way. -/
theorem Glimpsed.arrive {g : Glimpse} {s : Site} (h : Glimpsed p reasons g s) (now : Instant)
    (q : Statement) :
    Glimpsed p reasons g { s with server := (s.server.arrive now s.session.client q).2 } := by
  have hrules : ∀ r ∈ s.server.rules.map (Rule.count q.sql), ∀ text,
      r.failure = some text → text ∈ reasons := by
    intro r hr
    obtain ⟨r', hr', rfl⟩ := List.mem_map.1 hr
    have hreason := h.rules r' hr'
    unfold Rule.count
    split <;> exact hreason
  refine ⟨h.row, h.owes, h.connected, ⟨h.bounded.tables, h.bounded.drafts⟩, hrules, ?_⟩
  intro text htext
  simp only [Server.arrive, List.lookup_append, Server.lookup_filter_self, Option.none_or,
    List.lookup_cons_self, Option.join_some] at htext
  obtain ⟨r, hr, hfailure⟩ := List.exists_of_findSome?_eq_some htext
  exact hrules r (List.mem_filter.1 hr).1 text hfailure

theorem glancing_governs : (glancing p reasons).Governs (Glimpsed p reasons) where
  arrive := by
    rintro g s r now h -
    cases r with
    | statement q => exact h.arrive now q
    | _ => exact h
  answer := by
    rintro g s r now h hr
    cases r with
    | statement q => exact h.answer hr
    | connect o => exact hr.elim
    | disconnect => exact hr.elim
    | takeOwedRollback =>
      exact ⟨{ g with owes := false }, ⟨h.owes.symm, rfl⟩, h.row, rfl, h.connected, h.bounded,
        h.rules, h.verdict⟩
    | oweRollback =>
      exact ⟨{ g with owes := true }, rfl, h.row, rfl, h.connected, h.bounded, h.rules, h.verdict⟩
    | isConnected => exact ⟨g, ⟨h.connected.symm, rfl⟩, h⟩
    | _ => exact ⟨g, rfl, h.row, h.owes, h.connected, h.bounded, h.rules, h.verdict⟩

/-! ## Statements -/

variable {g : Glimpse} {row : Option Row} {connected : Bool}

theorem glance_ask {r : Request} {ok : r.Answer → Glimpse → Prop} (hr : r.Permitted p.table)
    (h : ∀ a g', g.Leads reasons r a g' → ok a g') :
    (Work.ask r).run.Obeys (glancing p reasons) (onSuccess ok fun _ => True) g :=
  (Program.obeys_bind (p := Program.request (I := interface) r)).2 ⟨hr, h⟩

theorem glance_log {line : String} :
    (Work.ask (.log line)).run.Obeys (glancing p reasons)
      (onSuccess (fun _ h => h = g) fun _ => True) g :=
  glance_ask trivial fun _ _ hg => hg

theorem glance_payDebt : payDebt.run.Obeys (glancing p reasons)
    (onSuccess
      (fun _ h => ∃ after, (g.owes = false → after = g.row) ∧ h = ⟨after, false, g.connected⟩)
      fun _ => True) g := by
  refine obeys_andThen (R := fun owed (h : Glimpse) => owed = g.owes ∧ h = { g with owes := false })
    (glance_ask trivial fun _ _ hg => hg) ?_
  rintro _ _ ⟨rfl, rfl⟩
  cases howes : g.owes with
  | false => exact ⟨g.row, fun _ => rfl, rfl⟩
  | true =>
    refine obeys_andThen (R := fun (a : Except ConnectionError Unit) h =>
      ∀ reply, a = .ok reply → h = ⟨h.row, false, g.connected⟩) (glance_ask trivial ?_) ?_
    · rintro _ ⟨after, owes, connected⟩ hg reply rfl
      obtain ⟨-, -, rfl, rfl⟩ := hg
      rfl
    · intro a h hh
      exact obeys_get (fun reply hreply => ⟨h.row, nofun, hh reply hreply⟩) fun _ _ => trivial

/-- **A statement that is not refused** is sent after the rollback that is owed. -/
theorem glance_send {q : Statement} (hq : q.Permitted p.table) :
    (send q).run.Obeys (glancing p reasons)
    (onSuccess (fun reply h => ∃ before after, (g.owes = false → before = g.row) ∧
      Server.Shows before q reply after ∧ Bounded after ∧ h = ⟨after, false, g.connected⟩)
        fun _ => True) g := by
  rw [send_eq]
  refine obeys_andThen glance_payDebt ?_
  rintro _ _ ⟨before, hbefore, rfl⟩
  refine obeys_andThen (R := fun (a : Except ConnectionError q.Reply) h => ∀ reply, a = .ok reply →
    ∃ after, Server.Shows before q reply after ∧ Bounded after ∧ h = ⟨after, false, g.connected⟩)
    (glance_ask hq ?_) ?_
  · rintro _ ⟨after, owes, connected⟩ hg reply rfl
    obtain ⟨hshows, hbounded, rfl, rfl⟩ := hg
    exact ⟨after, hshows, hbounded, rfl⟩
  · intro a h hh
    refine obeys_get (fun reply hreply => ?_) fun _ _ => trivial
    obtain ⟨after, hshows, hbounded, rfl⟩ := hh reply hreply
    exact ⟨before, after, hbefore, hshows, hbounded, rfl⟩

/-- A statement of a session that owes nothing. -/
theorem glance_send_paid {q : Statement} (hq : q.Permitted p.table) :
    (send q).run.Obeys (glancing p reasons) (onSuccess (fun reply h => ∃ after,
      Server.Shows row q reply after ∧ Bounded after ∧ h = ⟨after, false, connected⟩) fun _ => True)
      ⟨row, false, connected⟩ := by
  refine (glance_send hq).imp_ok ?_
  rintro reply _ ⟨_, after, hbefore, hshows, hbounded, rfl⟩
  obtain rfl := hbefore rfl
  exact ⟨after, hshows, hbounded, rfl⟩

/-! ## Versions -/

/-- **The version that a session reads** is that of the row that it would read next. -/
theorem glance_readVersion : p.readVersion.run.Obeys (glancing p reasons)
    (onSuccess (fun v h => ∃ row, Bounded row ∧ v = Plant.ofRow row ∧ h = ⟨row, false, g.connected⟩)
      fun _ => True) g := by
  refine obeys_andThen (glance_send rfl) ?_
  rintro reply _ ⟨row, after, -, ⟨rfl, rfl⟩, hbounded, rfl⟩
  exact ⟨_, hbounded, rfl, rfl⟩

theorem glance_replaceRow {version : Int} {dirty : Bool} (hversion : version < 0x8000000000000000) :
    (p.replaceRow version dirty).run.Obeys (glancing p reasons)
      (onSuccess (fun _ h => h = ⟨written version dirty, false, connected⟩) fun _ => True)
      ⟨row, false, connected⟩ := by
  rw [replaceRow_eq]
  refine obeys_andThen (glance_send_paid rfl) ?_
  rintro _ _ ⟨_, rfl, -, rfl⟩
  refine obeys_andThen (R := fun _ h => h = ⟨written version dirty, false, connected⟩) ?_ ?_
  · unfold written
    by_cases hhas : Plant.hasRow version dirty = true
    · rw [if_pos hhas, if_pos hhas]
      have hinsert : (Statement.insert p.table ⟨version, dirty⟩).Permitted p.table :=
        ⟨rfl, hversion⟩
      refine (glance_send_paid hinsert).imp_ok ?_
      rintro _ _ ⟨_, rfl, -, rfl⟩
      rfl
    · rw [if_neg hhas, if_neg hhas]
      exact rfl
  · rintro _ _ rfl
    refine (glance_send_paid (q := .commit) trivial).imp_ok ?_
    rintro _ _ ⟨_, rfl, -, rfl⟩
    rfl

/-- **A version that has been written is read next.** -/
theorem glance_writeVersion {version : Int} {dirty : Bool}
    (hversion : version < 0x8000000000000000) :
    (p.writeVersion version dirty).run.Obeys (glancing p reasons)
      (onSuccess (fun _ h => h = ⟨written version dirty, false, g.connected⟩) fun _ => True) g := by
  refine obeys_andThen (glance_send (q := .beginTransaction) trivial) ?_
  rintro _ _ ⟨_, after, -, -, -, rfl⟩
  refine obeys_andThen (obeys_attempt (glance_replaceRow hversion)) ?_
  rintro (e | _) h hh
  · exact obeys_andThen (R := fun _ _ => True) (glance_ask trivial fun _ _ _ => trivial)
      fun _ _ _ => trivial
  · exact hh

/-! ## Steps -/

/-- What is recorded of a version: one of 64 bits that the version table cannot hold is recorded as
none. -/
def kept (d : Nat) : Nat := (toBigint d).toNat

theorem kept_of_lt {d : Nat} (h : d < 0x8000000000000000) : kept d = d := by
  rw [kept, toBigint_of_lt h, Int.toNat_natCast]

theorem kept_of_le {d : Nat} (h : 0x8000000000000000 ≤ d)
    (hsize : d < Migrations.FileName.versionLimit) :
    kept d = 0 := by
  have hnegative := toBigint_neg h hsize
  unfold kept
  exact Int.toNat_of_nonpos (Int.le_of_lt hnegative)

theorem recorded_lt (target : Option Nat) : Plant.recorded target < 0x8000000000000000 := by
  cases target with
  | none => decide
  | some v => exact toBigint_lt v

theorem schemaOf_clean (version : Int) :
    schemaOf (written version false) = ⟨version.toNat, false⟩ := by
  unfold written Plant.hasRow
  by_cases hpos : 0 ≤ version
  · simp [hpos, schemaOf, Plant.ofRow]
  · simp [hpos, schemaOf, Plant.ofRow, Int.toNat_of_nonpos (Int.le_of_lt (Int.not_le.1 hpos))]

theorem schemaOf_mark (t : Step) : schemaOf (t.mark false) = ⟨kept t.level, false⟩ := by
  unfold Step.mark Step.level
  rw [schemaOf_clean]
  cases t.target with
  | none => rw [Option.getD_none, kept_of_lt (by decide)]; rfl
  | some v => simp only [Plant.recorded, kept, Option.getD_some]

-- Nothing below computes with 2⁶⁴.
attribute [irreducible] kept

theorem level_lt (h : Bounded row) : level row < 0x8000000000000000 := by
  cases row with
  | none => decide
  | some r =>
    have hr := h r rfl
    unfold level schemaOf Plant.ofRow
    by_cases hpos : 0 ≤ r.version
    · simp only [hpos, if_true, Option.getD_some]
      omega
    · cases hdirty : r.dirty <;> simp [hpos, hdirty]

/-- **After a plan its target is recorded**, as far as the version table can hold it. -/
theorem keeps_plan {target : Nat} {steps : List Step} (hbounded : Bounded row)
    (hclean : isDirty row = false)
    (hplan : p.source.plan ((Plant.ofRow row).map (·.version)) target = .ok steps) :
    schemaOf (rowAfter row steps) = ⟨kept target, false⟩ := by
  rcases List.eq_nil_or_concat steps with rfl | ⟨front, t, rfl⟩
  · have hlevel : level row = target := by
      rw [level_eq]
      exact Source.plan_nil hplan
    rw [← hlevel, kept_of_lt (level_lt hbounded), ← hclean]
    rfl
  · have hlast : (front.concat t).getLast? = some t := by simp
    have hlevel := Source.plan_last hplan hlast
    unfold rowAfter
    rw [hlast, Option.map_some, Option.getD_some, schemaOf_mark, hlevel]

theorem glance_readScript {d : Direction} {version : Nat} :
    (p.readScript d version).run.Obeys (glancing p reasons)
    (onSuccess (fun _ h => h = g) fun _ => True) g := by
  refine obeys_andThen (R := fun _ h => g = h) (obeys_get (fun _ _ => rfl) fun _ _ => trivial) ?_
  rintro script _ rfl
  refine obeys_andThen (R := fun _ h => g = h) (glance_ask trivial fun _ _ hg => hg.symm) ?_
  rintro a _ rfl
  exact obeys_get (fun _ _ => rfl) fun _ _ => trivial

theorem glance_runScript (text : String) : (p.runScript text).run.Obeys (glancing p reasons)
    (onSuccess (fun _ h => h = ⟨row, false, connected⟩) fun _ => True) ⟨row, false, connected⟩ := by
  unfold Plant.runScript
  split
  · exact rfl
  · refine (glance_send_paid (q := .script p.target.multiStatement text) trivial).imp_ok ?_
    rintro _ _ ⟨_, rfl, -, rfl⟩
    rfl

/-- **After a step its version is read next.** -/
theorem glance_takeStep {t : Step} : (p.takeStep t).run.Obeys (glancing p reasons)
    (onSuccess (fun _ h => h = ⟨t.mark false, false, g.connected⟩) fun _ => True) g := by
  refine obeys_andThen glance_readScript ?_
  rintro text _ rfl
  refine obeys_andThen (glance_writeVersion (recorded_lt t.target)) ?_
  rintro _ _ rfl
  refine obeys_andThen (glance_runScript text) ?_
  rintro _ _ rfl
  refine obeys_andThen (glance_writeVersion (recorded_lt t.target)) ?_
  rintro _ _ rfl
  exact glance_log

theorem glance_takeSteps (steps : List Step) : ∀ {row : Option Row},
    (p.takeSteps steps).run.Obeys (glancing p reasons)
    (onSuccess (fun _ h => h = ⟨rowAfter row steps, false, connected⟩) fun _ => True)
      ⟨row, false, connected⟩ := by
  induction steps with
  | nil => exact rfl
  | cons t rest ih =>
    intro row
    rw [takeSteps_cons]
    refine obeys_andThen (R := fun _ (h : Glimpse) => h = ⟨row, false, connected⟩)
      (glance_ask trivial fun _ _ hg => hg) ?_
    rintro stop _ rfl
    split
    · exact obeys_andThen glance_log fun _ _ _ => trivial
    · refine obeys_andThen glance_takeStep ?_
      rintro _ _ rfl
      rw [rowAfter_cons]
      exact ih

/-! ## The engine's programs -/

/-- **A migration that succeeds** leaves its target to be read. -/
theorem glance_migrateLocked {target : Nat} :
    (p.migrateLocked target).run.Obeys (glancing p reasons)
      (onSuccess
        (fun _ h => ∃ row, schemaOf row = ⟨kept target, false⟩ ∧ h = ⟨row, false, g.connected⟩)
        fun _ => True) g := by
  rw [migrateLocked_eq]
  refine obeys_andThen glance_readVersion ?_
  rintro _ _ ⟨row, hbounded, rfl, rfl⟩
  split
  · exact trivial
  · next hclean =>
    refine obeys_andThen (R := fun steps (h : Glimpse) =>
      p.source.plan ((Plant.ofRow row).map (·.version)) target = .ok steps ∧
        h = ⟨row, false, g.connected⟩)
      (obeys_get (fun steps hsteps => ⟨hsteps, rfl⟩) fun _ _ => trivial) ?_
    rintro steps _ ⟨hplan, rfl⟩
    refine (glance_takeSteps steps).imp_ok ?_
    rintro _ _ rfl
    refine ⟨_, keeps_plan hbounded ?_ hplan, rfl⟩
    unfold isDirty schemaOf
    cases hrow : Plant.ofRow row with
    | none => rfl
    | some c => simpa [hrow] using hclean

theorem glance_requireConnection : Plant.requireConnection.run.Obeys (glancing p reasons)
    (onSuccess (fun _ h => h = g ∧ g.connected = true) fun _ => True) g := by
  refine obeys_andThen (R := fun yes h => yes = g.connected ∧ g = h)
    (glance_ask trivial fun _ _ hg => ⟨hg.1, hg.2.symm⟩) ?_
  rintro _ _ ⟨rfl, rfl⟩
  cases g.connected with
  | true => exact ⟨rfl, rfl⟩
  | false => exact trivial

theorem glance_entrance (connected : Bool) : Entrance (glancing p reasons) p.target.lockKey
    (fun h => h.connected = connected) (fun h => h.connected = connected) fun _ => True where
  tryLock := by
    rintro g rfl
    refine (glance_send (q := .tryLock p.target.lockKey) trivial).imp_ok ?_
    rintro gotIt _ ⟨-, after, -, -, -, rfl⟩
    cases gotIt <;> rfl
  now := by
    rintro g rfl
    exact glance_ask trivial fun _ _ hg => hg ▸ rfl
  lockTimeout := by
    rintro g rfl
    exact glance_ask trivial fun _ _ hg => hg ▸ rfl
  giveUp _ := trivial

theorem glance_release : (release p.target.lockKey).run.Obeys (glancing p reasons)
    (onSuccess (fun _ h => g.owes = false → h = g) fun _ => True) g := by
  refine obeys_andThen (R := fun _ h => g.owes = false → h = g) ?_ ?_
  · refine (glance_send (q := .unlock p.target.lockKey) trivial).imp_ok ?_
    rintro hadIt _ ⟨before, _, hbefore, rfl, -, rfl⟩ hpaid
    obtain ⟨row, owes, connected⟩ := g
    obtain rfl : owes = false := hpaid
    rw [hbefore rfl]
  · rintro hadIt h hh
    cases hadIt with
    | true => exact hh
    | false =>
      refine obeys_andThen glance_log ?_
      rintro _ _ rfl
      exact hh

/-- What is done under the lock and succeeds. -/
theorem glance_locked {α : Type} {body : Work α} {R : Option Row → Prop}
    (hbody : ∀ h : Glimpse, h.connected = g.connected → body.run.Obeys (glancing p reasons)
      (onSuccess (fun _ h' => ∃ row, R row ∧ h' = ⟨row, false, g.connected⟩) fun _ => True) h) :
    (locked p.target.lockKey body).run.Obeys (glancing p reasons)
      (onSuccess (fun _ h => ∃ row, R row ∧ h = ⟨row, false, g.connected⟩) fun _ => True) g := by
  refine (glance_entrance g.connected).locked (L := fun _ => True)
    (R := fun _ h => ∃ row, R row ∧ h = ⟨row, false, g.connected⟩) rfl (fun ht => hbody _ ht) ?_ ?_
  · rintro _ _ ⟨row, hrow, rfl⟩
    exact glance_release.imp_ok fun _ h hh => ⟨row, hrow, hh rfl⟩
  · exact fun _ => glance_release.imp_ok fun _ _ _ => trivial

theorem glance_migrateTo {target : Nat} :
    (p.engine.migrateTo target).Obeys (glancing p reasons)
      (onSuccess (fun _ h => ∃ row, schemaOf row = ⟨kept target, false⟩ ∧ h = ⟨row, false, true⟩)
        fun _ => True) g := by
  refine obeys_inEngineWords (obeys_andThen glance_requireConnection ?_)
  rintro _ _ ⟨rfl, hconnected⟩
  rw [← hconnected]
  refine glance_locked fun h hh => ?_
  rw [← hh]
  exact glance_migrateLocked

theorem glance_version : p.engine.version.Obeys (glancing p reasons)
    (onSuccess (fun v h => ∃ row, Bounded row ∧ v = Plant.ofRow row ∧ h = ⟨row, false, true⟩)
      fun _ => True) g := by
  refine obeys_inEngineWords (obeys_andThen glance_requireConnection ?_)
  rintro _ _ ⟨rfl, hconnected⟩
  rw [← hconnected]
  exact glance_readVersion

/-- **A version that has been forced is read next.** -/
theorem glance_force {v : Nat} (hsize : v ≤ Engine.largestForced) :
    (p.engine.force v).Obeys (glancing p reasons)
    (onSuccess (fun _ h => h = ⟨some ⟨v, false⟩, false, true⟩) fun _ => True) g := by
  have hvalid : ¬ ((v : Int) < Plant.nilVersion) := by
    unfold Plant.nilVersion
    omega
  have hsmall : (v : Int) < 0x8000000000000000 := by
    unfold Engine.largestForced at hsize
    omega
  refine obeys_inEngineWords ?_
  unfold Plant.force
  rw [if_neg hvalid]
  refine obeys_andThen glance_requireConnection ?_
  rintro _ _ ⟨rfl, hconnected⟩
  rw [← hconnected]
  refine obeys_andThen (glance_locked (R := fun row => row = some ⟨v, false⟩) fun h hh => ?_) ?_
  · rw [← hh, ← written_clean v]
    refine (glance_writeVersion hsmall).imp_ok ?_
    rintro _ _ rfl
    exact ⟨_, rfl, rfl⟩
  · rintro _ _ ⟨_, rfl, rfl⟩
    exact glance_log

end Stairway.Postgres
