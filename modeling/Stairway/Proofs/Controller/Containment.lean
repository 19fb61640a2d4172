import Stairway.Proofs.Controller.Assembly
import Stairway.Proofs.Postgres.Address
import Stairway.Proofs.Url.Ports

/-!
# What a host can say

A host is read as part of a URL, so that it can say more than where the database is: it can end
before the port, begin a query and begin a fragment. `contained_iff` says when it does none of this,
and what holds all the same: a query that a host begins can name the table of the migrations, but
cannot take back how scripts are sent.
-/

namespace Stairway

open Url Url.Percent

namespace DatabaseSettings

variable {d : DatabaseSettings} {url : Url}

/-- A mark stands where host and port are read if the host holds it. -/
theorem mem_place {c : Char} (hkept : isDropped c = false) (hcolon : c ≠ ':')
    (hdigit : c.isDigit = false) :
    c ∈ d.place ↔ c ∈ d.host.toList := by
  have hport : c ∉ ':' :: Nat.toDigits 10 d.port := by
    intro hmem
    rcases List.mem_cons.1 hmem with rfl | hmem
    · exact hcolon rfl
    · rw [isDigit_of_mem_toDigits d.port c hmem] at hdigit
      cases hdigit
  unfold place
  rw [List.mem_append, or_iff_left hport, List.mem_filter]
  simp [hkept]

/-- The text of which host and port are read: behind the last `@`, up to a slash or a backslash. -/
def portText (d : DatabaseSettings) : List Char :=
  (splitAtFirst (· == '\\') (afterLast '@' (authorityText d.place))).1

/-- A host that says nothing but where the database is: it begins neither a query nor a fragment,
and the port is read behind it. -/
structure IsContained (d : DatabaseSettings) : Prop where
  noQuery : '?' ∉ d.host.toList
  noFragment : '#' ∉ d.host.toList
  port : EndsInPort d.port d.portText

/-- A host without the marks that end an authority is contained. -/
theorem IsContained.of_plain (h : ∀ c ∈ ['?', '#', '/', '\\'], c ∉ d.host.toList)
    (hport : d.port ≤ 65535) :
    d.IsContained := by
  have hmarks : ∀ c ∈ ['?', '#', '/', '\\'], isDropped c = false ∧ c ≠ ':' ∧ c.isDigit = false := by
    intro c hc
    simp only [List.mem_cons, List.not_mem_nil, or_false] at hc
    obtain rfl | rfl | rfl | rfl := hc
    all_goals decide
  have hplace : ∀ c ∈ ['?', '#', '/', '\\'], c ∉ d.place := by
    intro c hc hmem
    obtain ⟨hkept, hcolon, hdigit⟩ := hmarks c hc
    exact h c hc ((mem_place hkept hcolon hdigit).1 hmem)
  have hauthority : authorityText d.place = d.place := by
    have htail : splitAtFirst opensTail d.place = (d.place, []) := by
      refine splitAtFirst_of_notMem fun c hc => Bool.eq_false_iff.2 fun hopens => ?_
      simp only [opensTail, Bool.or_eq_true, beq_iff_eq] at hopens
      obtain rfl | rfl := hopens
      · exact hplace '?' (by decide) hc
      · exact hplace '#' (by decide) hc
    have hslash : splitAtFirst (· == '/') d.place = (d.place, []) := by
      refine splitAtFirst_of_notMem fun c hc => beq_eq_false_iff_ne.2 fun heq => ?_
      exact hplace '/' (by decide) (heq ▸ hc)
    rw [authorityText, htail, hslash]
  have hdigits : ∀ c, c.isDigit = false → c ≠ ':' → c ∉ ':' :: Nat.toDigits 10 d.port := by
    intro c hc hcolon hmem
    have hin := (List.mem_cons.1 hmem).resolve_left hcolon
    rw [isDigit_of_mem_toDigits d.port c hin] at hc
    cases hc
  have hback : afterLast '@' d.place =
      afterLast '@' (d.host.toList.filter (!isDropped ·)) ++ ':' :: Nat.toDigits 10 d.port :=
    afterLast_append_of_notMem _ (hdigits '@' (by decide) (by decide))
  have hwhole : splitAtFirst (· == '\\') (afterLast '@' d.place) = (afterLast '@' d.place, []) := by
    refine splitAtFirst_of_notMem fun c hc => beq_eq_false_iff_ne.2 fun heq => ?_
    have hin : c ∈ d.place :=
      List.mem_reverse.1 ((List.takeWhile_sublist _).subset (List.mem_reverse.1 hc))
    exact hplace '\\' (by decide) (heq ▸ hin)
  exact { noQuery := h '?' (by decide)
          noFragment := h '#' (by decide)
          port := ⟨_, _, by rw [portText, hauthority, hwhole, hback], parsePort_toDigits hport⟩ }

/-- The pairs of the query that the host begins. -/
def hostPairs (d : DatabaseSettings) : List (List Char × List Char) :=
  Form.decodePairs ((parseTail .plain (tailText d.place)).1.getD [])

theorem hostPairs_of_noQuery (h : '?' ∉ d.host.toList) : d.hostPairs = [] := by
  have hplace : '?' ∉ d.place :=
    fun hmem => h ((mem_place (by decide) (by decide) (by decide)).1 hmem)
  have htail : '?' ∉ tailText d.place :=
    fun hmem => hplace ((mem_splitAtFirst (p := opensTail) (by decide) d.place).1 hmem)
  rw [hostPairs, parseTail_noQuery htail]
  rfl

/-- A query that the host begins holds the colon of the port. -/
theorem hostPairs_eq_nil_iff (h : '#' ∉ d.host.toList) :
    d.hostPairs = [] ↔ '?' ∉ d.host.toList := by
  refine ⟨?_, hostPairs_of_noQuery⟩
  intro hnil hmem
  have hfragment : '#' ∉ tailText d.place := fun hin =>
    h ((mem_place (by decide) (by decide) (by decide)).1
      ((mem_splitAtFirst (p := opensTail) (by decide) _).1 hin))
  have hhost : '?' ∈ d.host.toList.filter (!isDropped ·) := List.mem_filter.2 ⟨hmem, by decide⟩
  have htail : tailText d.place =
      tailText (d.host.toList.filter (!isDropped ·)) ++ ':' :: Nat.toDigits 10 d.port := by
    have hne :
        ((d.host.toList.filter (!isDropped ·)).dropWhile (!opensTail ·)).isEmpty = false := by
      have hin := (mem_splitAtFirst (p := opensTail) (by decide) _).2 hhost
      exact List.isEmpty_eq_false_iff.2 (List.ne_nil_of_mem hin)
    simp only [tailText, splitAtFirst, place, List.dropWhile_append, hne, Bool.false_eq_true,
      if_false]
  obtain hnone | ⟨c, q, hsome, hc⟩ := splitAtFirst_cases opensTail d.place
  · rw [tailText, hnone] at htail
    simp at htail
  · have htext : tailText d.place = c :: q := hsome
    have hquery : c = '?' := by
      simp only [opensTail, Bool.or_eq_true, beq_iff_eq] at hc
      refine hc.resolve_right fun hhash => ?_
      rw [htext, hhash] at hfragment
      exact hfragment List.mem_cons_self
    have hcolon : ':' ∈ q := by
      have hin : ':' ∈ tailText d.place := by simp [htail]
      rw [htext, hquery] at hin
      exact (List.mem_cons.1 hin).resolve_left (by decide)
    rw [htext] at hfragment
    rw [hostPairs, htext, hquery, parseTail_query fun hin => hfragment (List.mem_cons_of_mem c hin)]
      at hnil
    refine Form.decodePairs_ne_nil (c := ':') ?_ (by decide) hnil
    exact List.mem_flatMap.2 ⟨':', hcolon, by decide⟩

/-- What an engine reads that accepts the URL: scripts are sent as they are, and another table than
the default is named in a query that the host begins. -/
theorem accepted (h : d.connectionUrl = .ok url) {t : Postgres.Target}
    (ht : Postgres.Target.parse url.render = .ok t) : t.multiStatement = true ∧
      (t.table = Postgres.Target.defaultTable ∨
        '?' ∈ d.host.toList ∧ (Postgres.Target.tableKey, t.table) ∈ url.pairs) := by
  obtain ⟨a, more, -, hspelled, -, hpairs⟩ := connectionUrl_spelled h
  obtain ⟨-, hsaid⟩ :=
    Postgres.Target.foldlM_read_eq_ok_iff.1 (Postgres.Target.foldlM_of_parse hspelled ht)
  constructor
  · have hlast : url.pairs = d.hostPairs ++ [("sslmode".toList, d.sslMode.toList)] ++
        [(Postgres.Target.flagKey, "true".toList)] := by
      rw [hpairs, List.append_assoc]
      rfl
    rw [hlast] at hsaid
    exact (congrArg Postgres.Target.Options.multiStatement hsaid).trans
      (Postgres.Target.lastFlag_after _ _)
  · have htold := Postgres.Target.table_after {} url.pairs
    rw [← hsaid] at htold
    obtain hsame | hmem := htold
    · exact .inl hsame
    · refine (em ('?' ∈ d.host.toList)).elim (fun hin => .inr ⟨hin, hmem⟩) fun hnone => ?_
      have hother : ∀ table, (Postgres.Target.tableKey, table) ∉ d.ownPairs := by
        intro table
        simp only [ownPairs, List.mem_cons, Prod.mk.injEq, List.not_mem_nil, or_false, not_or,
          not_and]
        exact ⟨fun heq => absurd heq (by decide), fun heq => absurd heq (by decide)⟩
      rw [hpairs, show Form.decodePairs _ = [] from hostPairs_of_noQuery hnone] at hmem
      exact absurd hmem (hother t.table)

/-- **What a host can say.** Port, fragment and query are those of the settings exactly if the host
is contained. An engine that accepts the URL sends scripts as they are, whatever the host, and only
a query that the host begins can name another table than the default. -/
theorem contained_iff (h : d.connectionUrl = .ok url) :
    (url.authority.bind (·.port) = some d.port ∧ url.fragment = none ∧ url.pairs = d.ownPairs ↔
      d.IsContained) ∧
      ∀ t, Postgres.Target.parse url.render = .ok t → t.multiStatement = true ∧
        (t.table = Postgres.Target.defaultTable ∨
          '?' ∈ d.host.toList ∧ (Postgres.Target.tableKey, t.table) ∈ url.pairs) := by
  obtain ⟨a, more, hplace, hspelled, hfragment, hpairs⟩ := connectionUrl_spelled h
  have hhash : url.fragment = none ↔ '#' ∉ d.host.toList := by
    rw [hfragment, parseTail_fragment, tailText, mem_splitAtFirst (by decide),
      mem_place (by decide) (by decide) (by decide)]
  have hown : '#' ∉ d.host.toList → (url.pairs = d.ownPairs ↔ '?' ∉ d.host.toList) := by
    intro hnone
    rw [← hostPairs_eq_nil_iff hnone, hpairs]
    exact List.append_left_eq_self
  have hport : url.authority.bind (·.port) = some d.port ↔ EndsInPort d.port d.portText := by
    rw [hspelled.hasAuthority]
    exact place?_port_iff hplace
  refine ⟨⟨?_, ?_⟩, fun t ht => accepted h ht⟩
  · intro ⟨hp, hf, hq⟩
    have hnone := hhash.1 hf
    exact ⟨(hown hnone).1 hq, hnone, hport.1 hp⟩
  · intro hcontained
    exact ⟨hport.2 hcontained.port, hhash.2 hcontained.noFragment,
      (hown hcontained.noFragment).2 hcontained.noQuery⟩

/-- A host that says where the database is, and an SSL mode with marks. -/
theorem contained_iff_plain :
    ∃ url,
      ({ host := "db.internal", sslMode := "a&x-migrations-table=b#" } :
        DatabaseSettings).connectionUrl = .ok url ∧
      (url.authority.bind (·.port) = some 5432 ∧ url.fragment = none ∧
          url.pairs = ownPairs { host := "db.internal", sslMode := "a&x-migrations-table=b#" } ↔
        IsContained { host := "db.internal", sslMode := "a&x-migrations-table=b#" }) ∧
      ∀ t, Postgres.Target.parse url.render = .ok t → t.multiStatement = true ∧
        (t.table = Postgres.Target.defaultTable ∨
          '?' ∈ "db.internal".toList ∧ (Postgres.Target.tableKey, t.table) ∈ url.pairs) :=
  ⟨_, rfl, contained_iff (d := { host := "db.internal", sslMode := "a&x-migrations-table=b#" }) rfl⟩

/-- A host that leaves the port out and names a table. -/
theorem host_names_table :
    ∃ url t,
      ({ host := "h?x-migrations-table=evil&a=" } : DatabaseSettings).connectionUrl = .ok url ∧
      url.authority.bind (·.port) = none ∧ Postgres.Target.parse url.render = .ok t ∧
      t.table = "evil".toList :=
  ⟨_, _, rfl, by decide, rfl, by decide⟩

end DatabaseSettings

end Stairway
