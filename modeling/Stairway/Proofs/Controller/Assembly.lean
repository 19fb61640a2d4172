import Stairway.Controller.Settings
import Stairway.Postgres.Target
import Stairway.Proofs.Url.Spelling

/-!
# How a connection URL is put together

The host is the one part of the settings that is read as it stands: it is pasted between
`postgresql://` and the port, and read as a URL (`connectionUrl_eq_ok_iff`). User, password, name
and SSL mode are coded into that URL. What comes out is spelled with what each of its parts spares
(`connectionUrl_spelled`), so that an engine that reads the text finds the path and the pairs again,
and of the rest no more than whether host and port can be read (`parse_connectionUrl`).
-/

namespace Stairway

open Url Url.Percent

namespace DatabaseSettings

variable {d : DatabaseSettings} {url : Url}

/-- The host as it is read, and the port behind it. -/
def place (d : DatabaseSettings) : List Char :=
  d.host.toList.filter (!isDropped ·) ++ ':' :: Nat.toDigits 10 d.port

theorem parse_place (d : DatabaseSettings) :
    Url.parse ("postgresql://" ++ d.host ++ ":" ++ toString d.port) =
      parseAfterScheme postgresql ('/' :: '/' :: d.place) := by
  have hne : Nat.toDigits 10 d.port ≠ [] := Nat.toDigits_ne_nil
  have hdigit : ∀ c ∈ Nat.toDigits 10 d.port, isGraphic c = true ∧ isDropped c = false := by
    have hall : ∀ n < 10, isGraphic (Nat.digitChar n) = true ∧
        isDropped (Nat.digitChar n) = false := by decide
    intro c hc
    obtain ⟨n, hn, rfl⟩ := mem_toDigits (by decide) d.port c hc
    exact hall n hn
  have hlast : 0x20 < ((Nat.toDigits 10 d.port).getLast hne).toNat := by
    simpa [isGraphic] using (hdigit _ (List.getLast_mem hne)).1
  have hdigits := List.dropLast_append_getLast hne
  have htext : "postgresql://" ++ d.host ++ ":" ++ toString d.port =
      String.ofList (opening ++ (d.host.toList ++ ':' :: (Nat.toDigits 10 d.port).dropLast ++
        [(Nat.toDigits 10 d.port).getLast hne])) := by
    rw [List.append_assoc, List.cons_append, hdigits, Nat.toString_eq_ofList_toDigits]
    apply String.toList_injective
    have hopening : "postgresql://".toList = opening := by decide
    have hcolon : ":".toList = [':'] := by decide
    simp only [String.toList_append, String.toList_ofList, hopening, hcolon, List.append_assoc,
      List.singleton_append]
  have hkept : (d.host.toList ++ ':' :: (Nat.toDigits 10 d.port).dropLast ++
      [(Nat.toDigits 10 d.port).getLast hne]).filter (!isDropped ·) = d.place := by
    have hdigits' : (Nat.toDigits 10 d.port).filter (!isDropped ·) = Nat.toDigits 10 d.port := by
      rw [List.filter_eq_self]
      intro c hc
      simp [(hdigit c hc).2]
    have hcolon : isDropped ':' = false := by decide
    rw [List.append_assoc, List.cons_append, hdigits, List.filter_append,
      List.filter_cons_of_pos (by simp [hcolon]), hdigits']
    rfl
  rw [htext, parse_opening _ hlast, hkept]

/-- An authority with the user and the password of the settings. -/
def entitled (d : DatabaseSettings) (a : Authority) : Authority :=
  let password := encode sparedInUserinfo d.password.toList
  { a with
    user := encode sparedInUserinfo d.user.toList
    password := if password.isEmpty then none else some password }

/-- The pairs of the query that every connection URL ends with. -/
def ownPairs (d : DatabaseSettings) : List (List Char × List Char) :=
  [("sslmode".toList, d.sslMode.toList), ("x-multi-statement".toList, "true".toList)]

/-- The URL that is put together on what is read of the host and the port. -/
def assembled (d : DatabaseSettings) (base : Url) (a : Authority) : Url :=
  { base with
    authority := some (d.entitled a)
    path := Url.Path.ofText (· == '/') (d.name.toList.filter (!isDropped ·))
    query := (base.withPairs d.ownPairs).query }

/-- The steps of putting a URL together, on what is read of host and port. -/
theorem connectionUrl_eq (d : DatabaseSettings) :
    d.connectionUrl =
      match parseAfterScheme postgresql ('/' :: '/' :: d.place) with
      | .error cause => .error (.invalidHost d.host cause)
      | .ok base =>
        match base.withUser? d.user.toList with
        | none => .error .noPlaceForUser
        | some url =>
          match url.withPassword? d.password.toList with
          | none => .error .noPlaceForPassword
          | some url => .ok ((url.withPath d.name.toList).withPairs d.ownPairs) := by
  unfold connectionUrl
  rw [parse_place]
  cases parseAfterScheme postgresql ('/' :: '/' :: d.place) with
  | error cause => rfl
  | ok base =>
    simp only [bind, Except.bind, pure, Except.pure]
    cases base.withUser? d.user.toList with
    | none => rfl
    | some url =>
      simp only
      cases url.withPassword? d.password.toList <;> rfl

/-- **When there is a connection URL**, and which: the host settles it, with the port behind it. -/
theorem connectionUrl_eq_ok_iff :
    d.connectionUrl = .ok url ↔ ∃ base a,
      parseAfterScheme postgresql ('/' :: '/' :: d.place) = .ok base ∧
      base.authority = some a ∧ a.host.isEmpty = false ∧ url = d.assembled base a := by
  rw [connectionUrl_eq]
  cases parseAfterScheme postgresql ('/' :: '/' :: d.place) with
  | error cause => exact ⟨nofun, nofun⟩
  | ok base =>
    constructor
    · intro hurl
      cases hauthority : base.authority with
      | none => simp [withUser?, hauthority] at hurl
      | some a =>
        cases hhost : a.host.isEmpty with
        | true => simp [withUser?, hauthority, hhost] at hurl
        | false =>
          simp only [withUser?, hauthority, hhost, withPassword?, Bool.false_eq_true,
            if_false] at hurl
          exact ⟨base, a, rfl, hauthority, hhost, (Except.ok.inj hurl).symm⟩
    · rintro ⟨_, a, ⟨⟩, hauthority, hhost, rfl⟩
      simp only [withUser?, hauthority, hhost, withPassword?, Bool.false_eq_true, if_false]
      rfl

/-- What is read of host and port, and of what comes behind them. -/
theorem base_parts {base : Url}
    (h : parseAfterScheme postgresql ('/' :: '/' :: d.place) = .ok base) :
    ∃ a more, place? (afterLast '@' (authorityText d.place)) = .ok (a.host, a.port, more) ∧
      base = ⟨postgresql, some a, pathOf (more ++ pathText d.place),
        (parseTail .plain (tailText d.place)).1, (parseTail .plain (tailText d.place)).2⟩ := by
  rw [parseAfterScheme_postgresql] at h
  cases hauthority : parseAuthority .plain postgresql (authorityText d.place)
      (pathText d.place ++ tailText d.place).head? with
  | error cause =>
    rw [hauthority] at h
    exact absurd h nofun
  | ok found =>
    obtain ⟨a, more⟩ := found
    rw [hauthority] at h
    obtain ⟨info, hinfo⟩ := parseAuthority_ok (by decide) hauthority
    exact ⟨a, more, readAuthority_ok hinfo, (Except.ok.inj h).symm⟩

/-- **A connection URL**: it is spelled with what its parts spare, and holds the host, the port, the
query and the fragment that are read of its host. -/
theorem connectionUrl_spelled (h : d.connectionUrl = .ok url) :
    ∃ a more, place? (afterLast '@' (authorityText d.place)) = .ok (a.host, a.port, more) ∧
      url.IsSpelled a (url.query.getD []) ∧
      url.fragment = (parseTail .plain (tailText d.place)).2 ∧
      url.pairs = Form.decodePairs
        ((parseTail .plain (tailText d.place)).1.getD []) ++ d.ownPairs := by
  obtain ⟨base, a, hbase, hauthority, hhost, rfl⟩ := connectionUrl_eq_ok_iff.1 h
  obtain ⟨a', more, hplace, rfl⟩ := base_parts hbase
  obtain rfl : a' = a := Option.some_inj.1 hauthority
  obtain ⟨hquery, hfragment⟩ := parseTail_spared (tailText d.place)
  obtain ⟨hostText, -, -, hopaque, -⟩ := place?_ok hplace
  refine ⟨d.entitled a', more, hplace, ⟨rfl, rfl, ?_, ?_, rfl, ?_, ?_, ?_, ?_, ?_, ?_⟩, rfl, ?_⟩
  · exact Host.render_ne_nil hhost
  · exact Url.Path.ofText_eq_slash _
  · exact keep_of_mem_encode (by decide) (by decide) _
  · intro p hp
    simp only [entitled] at hp
    split at hp
    · cases hp
    · rw [← Option.some_inj.1 hp]
      exact keep_of_mem_encode (by decide) (by decide) _
  · exact hostChar_of_parseOpaque hopaque
  · exact Path.spared_of_mem_ofText _ _
  · intro c hc
    simp only [assembled, withPairs, Option.getD_some] at hc
    split at hc
    · exact spared_of_mem_encodePairs _ c hc
    · rcases List.mem_append.1 hc with hc | hc
      · cases hold : (parseTail .plain (tailText d.place)).1 with
        | none => simp [hold] at hc
        | some q => exact hquery q hold c (by simpa [hold] using hc)
      · rcases List.mem_cons.1 hc with rfl | hc
        · decide
        · exact spared_of_mem_encodePairs _ c hc
  · exact hfragment
  · simp only [pairs, assembled, withPairs, Option.getD_some]
    split
    · next hempty =>
      rw [List.isEmpty_iff.1 hempty, Form.decodePairs_encodePairs]
      rfl
    · rw [Form.decodePairs_append, Form.decodePairs_encodePairs]

end DatabaseSettings

/-! ## What an engine reads of it -/

namespace Postgres.Target

/-- What the path and the pairs of an address say: which database, which table, how scripts are
sent. -/
def read (path : List Char) (pairs : List (List Char × List Char)) :
    Except TargetFault (List Char × Options) :=
  if (path.dropWhile (· == '/')).isEmpty then .error .noDatabase
  else (pairs.foldlM Options.read {}).map fun o => (path.dropWhile (· == '/'), o)

/-- What an address says of the migrations. -/
def reading (t : Target) : List Char × Options := (t.database, ⟨t.table, t.multiStatement⟩)

theorem reading_ofUrl {u : Url} (h : u.scheme = postgresql) :
    (ofUrl u).map reading = read u.path u.pairs := by
  have hscheme :
      (decide (u.scheme ≠ "postgres".toList) && decide (u.scheme ≠ "postgresql".toList)) =
        false := by
    rw [h]
    decide
  unfold ofUrl read
  simp only [hscheme, Bool.false_eq_true, if_false]
  cases hdatabase : (u.path.dropWhile (· == '/')).isEmpty with
  | true => rfl
  | false =>
    simp only [Bool.false_eq_true, if_false]
    cases u.pairs.foldlM Options.read {} <;> rfl

/-- **What an engine reads of an address as it is spelled.** -/
theorem reading_render {u : Url} {a : Authority} {query : List Char} (h : u.IsSpelled a query) :
    (parse u.render).map reading =
      match place? a.place with
      | .error cause => .error (.notUrl cause)
      | .ok (_, _, more) => read (pathOf (more ++ u.path)) u.pairs := by
  obtain ⟨user, password, fragment, hread⟩ := h.parse_render
  unfold parse
  rw [hread]
  cases place? a.place with
  | error cause => rfl
  | ok found =>
    obtain ⟨host, port, more⟩ := found
    have hpairs : u.pairs = Form.decodePairs query := by rw [pairs, h.hasQuery, Option.getD_some]
    simp only [Except.map, hpairs]
    exact reading_ofUrl rfl

theorem foldlM_of_read {path database : List Char} {ps : List (List Char × List Char)} {o : Options}
    (h : read path ps = .ok (database, o)) : ps.foldlM Options.read {} = .ok o := by
  unfold read at h
  split at h
  · cases h
  · cases hfold : ps.foldlM Options.read {} with
    | error fault =>
      rw [hfold] at h
      exact absurd h nofun
    | ok o' =>
      rw [hfold] at h
      cases h
      rfl

/-- What is read of an address that is accepted. -/
theorem foldlM_of_parse {u : Url} {a : Authority} {query : List Char} {t : Target}
    (hu : u.IsSpelled a query) (h : parse u.render = .ok t) :
    u.pairs.foldlM Options.read {} = .ok ⟨t.table, t.multiStatement⟩ := by
  have hreading := reading_render hu
  rw [h] at hreading
  cases hplace : place? a.place with
  | error cause =>
    rw [hplace] at hreading
    exact absurd hreading nofun
  | ok found =>
    rw [hplace] at hreading
    exact foldlM_of_read hreading.symm

end Postgres.Target

end Stairway
