import Stairway.Proofs.Url.Ipv6
import Stairway.Proofs.Url.Reading

/-!
# URLs as they are written

Every part of a URL is written with characters that it spares, and none of these ends it. So a URL
that is spelled with what its parts spare (`IsSpelled`) is cut where it was put together
(`IsSpelled.parts`), and what was written is read again, but for host and port, which are read for
themselves (`IsSpelled.parse_render`).
-/

namespace Stairway.Url

open Percent

/-! ## What is spared -/

theorem forall_encode {keep : Char → Bool} {P : Char → Prop} {s : List Char}
    (hkept : ∀ c ∈ s, keep c = true → P c) (hpercent : P '%') (hdigit : ∀ n < 16, P (hexDigit n)) :
    ∀ c ∈ encode keep s, P c := by
  intro c hc
  obtain ⟨d, hd, hcoded⟩ := List.mem_flatMap.1 hc
  split at hcoded
  · next hkeep =>
    rw [List.mem_singleton.1 hcoded]
    exact hkept d hd hkeep
  · obtain ⟨b, -, hb⟩ := List.mem_flatMap.1 hcoded
    have hlt : b.toNat < 256 := b.toNat_lt
    simp only [encodeByte, List.mem_cons, List.not_mem_nil, or_false] at hb
    obtain rfl | rfl | rfl := hb
    · exact hpercent
    · exact hdigit _ (by omega)
    · exact hdigit _ (by omega)

/-- Everything that is written is spared, if the set spares what makes a group. -/
theorem keep_of_mem_encode {keep : Char → Bool} (hpercent : keep '%' = true)
    (hdigit : ∀ n < 16, keep (hexDigit n) = true) (s : List Char) :
    ∀ c ∈ encode keep s, keep c = true :=
  forall_encode (fun _ _ hkept => hkept) hpercent hdigit

theorem encode_eq_self {keep : Char → Bool} {s : List Char} (h : ∀ c ∈ s, keep c = true) :
    encode keep s = s := by
  induction s with
  | nil => rfl
  | cons c s ih =>
    rw [encode_cons, if_pos (h c List.mem_cons_self),
      ih fun d hd => h d (List.mem_cons_of_mem c hd), List.singleton_append]

theorem Path.forall_fold {P : Char → Prop} (hslash : P '/') (segs : List (List Char)) :
    ∀ closed : List (List Char), (∀ s ∈ closed, ∀ c ∈ s, P c) → (∀ s ∈ segs, ∀ c ∈ s, P c) →
      ∀ c ∈ Path.fold closed segs, P c := by
  have hspell : ∀ segs : List (List Char), (∀ s ∈ segs, ∀ c ∈ s, P c) → ∀ c ∈ spell segs, P c := by
    intro segs h c hc
    obtain ⟨s, hs, hmem⟩ := List.mem_flatMap.1 hc
    rcases List.mem_cons.1 hmem with rfl | hmem
    · exact hslash
    · exact h s hs c hmem
  have hjoin : ∀ (closed : List (List Char)) (last : List Char), (∀ s ∈ closed, ∀ c ∈ s, P c) →
      (∀ c ∈ last, P c) → ∀ c ∈ joinOnto closed last, P c := by
    intro closed last hclosed hlast
    rw [joinOnto_eq]
    refine hspell _ fun s hs => ?_
    rcases List.mem_append.1 hs with hs | hs
    · exact hclosed s (List.mem_reverse.1 hs)
    · rw [List.mem_singleton.1 hs]
      exact hlast
  have hup : ∀ closed : List (List Char), (∀ s ∈ closed, ∀ c ∈ s, P c) →
      ∀ s ∈ up closed, ∀ c ∈ s, P c := by
    intro closed hclosed s hs
    cases closed with
    | nil => exact hclosed s hs
    | cons t closed =>
      rw [up] at hs
      split at hs
      · exact hclosed s hs
      · exact hclosed s (List.mem_cons_of_mem t hs)
  induction segs with
  | nil => exact fun closed hclosed _ => hjoin closed [] hclosed (by simp)
  | cons s rest ih =>
    intro closed hclosed hsegs
    have hs := hsegs s List.mem_cons_self
    have hrest : ∀ t ∈ rest, ∀ c ∈ t, P c := fun t ht => hsegs t (List.mem_cons_of_mem s ht)
    cases rest with
    | nil =>
      rw [fold]
      split
      · exact hjoin _ [] (hup closed hclosed) (by simp)
      · split
        · exact hjoin _ [] hclosed (by simp)
        · exact hjoin _ s hclosed hs
    | cons s' rest =>
      rw [fold_cons_cons]
      split
      · exact ih _ (hup closed hclosed) hrest
      · split
        · exact ih _ hclosed hrest
        · refine ih _ (fun t ht => ?_) hrest
          rcases List.mem_cons.1 ht with rfl | ht
          · exact hs
          · exact hclosed t ht

/-- A path is written with what it spares. -/
theorem Path.spared_of_mem_ofText (isSlash : Char → Bool) (text : List Char) :
    ∀ c ∈ Path.ofText isSlash text, sparedInPath c = true := by
  refine Path.forall_fold (by decide) _ [] (by simp) fun s hs => ?_
  obtain ⟨t, -, rfl⟩ := List.mem_map.1 hs
  exact keep_of_mem_encode (by decide) (by decide) t

/-- Whatever holds of the printable characters holds of each that a set spares. -/
theorem of_spared {P : Char → Prop} (h : ∀ n < 127, P (Char.ofNat n)) {c : Char}
    (hc : sparedByControls c = true) :
    P c := by
  simp only [sparedByControls, Bool.and_eq_true, decide_eq_true_eq] at hc
  rw [← Char.ofNat_toNat c]
  exact h _ hc.2

/-- A set that spares no more than that is looked through character by character. -/
theorem of_kept {keep : Char → Bool} {P : Char → Prop}
    (hcontrols : ∀ c, keep c = true → sparedByControls c = true)
    (h : ∀ n < 127, keep (Char.ofNat n) = true → P (Char.ofNat n)) {c : Char}
    (hc : keep c = true) : P c :=
  of_spared (P := fun c => keep c = true → P c) h (hcontrols c hc) hc

/-- What may stand in a host as it is written: no blank, and nothing that ends it. -/
def isHostChar (c : Char) : Bool := decide (0x20 < c.toNat) && !(['/', '?', '#', '@'].contains c)

theorem hostChar_of_parseOpaque {s : List Char} {h : Host} (hparse : Host.parseOpaque s = .ok h) :
    ∀ c ∈ h.render, isHostChar c = true := by
  unfold Host.parseOpaque at hparse
  split at hparse
  · unfold Host.bracketed at hparse
    split at hparse
    · exact absurd hparse nofun
    split at hparse
    · next ps _ =>
      cases hparse
      intro c hc
      rcases List.mem_cons.1 hc with rfl | hc
      · decide
      rcases List.mem_append.1 hc with hc | hc
      · exact Ipv6.forall_render (P := fun c => isHostChar c = true) (by decide) (by decide) ps c hc
      · rw [List.mem_singleton.1 hc]
        decide
    · exact absurd hparse nofun
  · split at hparse
    · exact absurd hparse nofun
    · next hallowed =>
      cases hparse
      refine forall_encode (fun c hc hkept => ?_) (by decide) (by decide)
      have hnot : Host.isForbidden c = false := by
        simp only [List.any_eq_true, not_exists, not_and] at hallowed
        simpa using hallowed c hc
      have hall : ∀ n < 127, Host.isForbidden (Char.ofNat n) = false →
          sparedByControls (Char.ofNat n) = true → isHostChar (Char.ofNat n) = true := by
            decide +kernel
      exact of_spared (P := fun c => Host.isForbidden c = false → sparedByControls c = true →
        isHostChar c = true) hall hkept hnot hkept

theorem Host.render_ne_nil {h : Host} (hhost : h.isEmpty = false) : h.render ≠ [] := by
  cases h with
  | name text => exact fun hnil => by simp [Host.isEmpty, show text = [] from hnil] at hhost
  | ipv4 address => simp [Host.render, List.intercalate_cons_cons]
  | ipv6 pieces => simp [Host.render]

/-- A scheme that is none of the web spares the apostrophe. -/
theorem sparedInQuery_plain :
    (fun c => sparedInQuery c && !(decide (SchemeKind.plain ≠ SchemeKind.plain) && c == '\'')) =
      sparedInQuery := by
  funext c
  simp

/-- There is a fragment where there is its mark. -/
theorem parseTail_fragment (s : List Char) : (parseTail .plain s).2 = none ↔ '#' ∉ s := by
  rw [← mem_splitAtFirst (p := (· == '#')) (by decide) s]
  unfold parseTail
  obtain hnone | ⟨c, rest, hsome, hc⟩ := splitAtFirst_cases (· == '#') s
  · simp [hnone]
  · obtain rfl := beq_iff_eq.1 hc
    simp [hsome]

/-- Without a fragment the query is all that follows its mark. -/
theorem parseTail_query {q : List Char} (h : '#' ∉ q) :
    (parseTail .plain ('?' :: q)).1 = some (encode sparedInQuery q) := by
  have hsplit : splitAtFirst (· == '#') ('?' :: q) = ('?' :: q, []) := by
    refine splitAtFirst_of_notMem fun c hc => beq_eq_false_iff_ne.2 ?_
    intro heq
    exact (List.mem_cons.1 (heq ▸ hc)).elim (by decide) h
  unfold parseTail
  simp only [hsplit, sparedInQuery_plain]

/-- Without its mark there is no query. -/
theorem parseTail_noQuery {s : List Char} (h : '?' ∉ s) : (parseTail .plain s).1 = none := by
  cases hquery : (splitAtFirst (· == '#') s).1 with
  | nil => simp [parseTail, hquery]
  | cons c q =>
    have htake : s.takeWhile (fun c => !(c == '#')) = c :: q := hquery
    have hmem : c ∈ s := (List.takeWhile_sublist _).subset (htake ▸ List.mem_cons_self)
    have hc : c ≠ '?' := fun heq => h (heq ▸ hmem)
    unfold parseTail
    simp only [hquery]
    split
    · next heq => exact absurd (List.cons.inj heq).1 hc
    · rfl

/-- Query and fragment are read with what they spare. -/
theorem parseTail_spared (s : List Char) :
    (∀ q, (parseTail .plain s).1 = some q → ∀ c ∈ q, sparedInQuery c = true) ∧
      ∀ f, (parseTail .plain s).2 = some f → ∀ c ∈ f, sparedInFragment c = true := by
  unfold parseTail
  simp only [sparedInQuery_plain]
  constructor
  · intro q hq
    split at hq
    · rw [← Option.some_inj.1 hq]
      exact keep_of_mem_encode (by decide) (by decide) _
    · cases hq
  · intro f hf
    split at hf
    · rw [← Option.some_inj.1 hf]
      exact keep_of_mem_encode (by decide) (by decide) _
    · cases hf

theorem Form.lt_of_isSpared {c : Char} (h : Form.isSpared c = true) : c.toNat < 127 := by
  have hmarks : "*-._".toList = ['*', '-', '.', '_'] := by decide
  have hbelow : ∀ high : Char, c.val ≤ high.val → high.toNat < 127 → c.toNat < 127 :=
    fun high hle hlt => Nat.lt_of_le_of_lt (UInt32.le_iff_toNat_le.1 hle) hlt
  have hcases : (c.isUpper || c.isLower || c.isDigit || "*-._".toList.contains c) = true := h
  simp only [hmarks, Bool.or_eq_true, List.contains_cons, List.contains_nil, Bool.or_false,
    beq_iff_eq] at hcases
  obtain ((hupper | hlower) | hdigit) | hmark := hcases
  · exact hbelow 'Z' (of_decide_eq_true hupper).2 (by decide)
  · exact hbelow 'z' (of_decide_eq_true (Bool.and_eq_true_iff.1 hlower).2) (by decide)
  · exact hbelow '9' (of_decide_eq_true (Bool.and_eq_true_iff.1 hdigit).2) (by decide)
  · obtain rfl | rfl | rfl | rfl := hmark
    all_goals decide

/-- A form writes what a query spares. -/
theorem spared_of_mem_encodePairs (ps : List (List Char × List Char)) :
    ∀ c ∈ Form.encodePairs ps, sparedInQuery c = true := by
  have hall : ∀ n < 127, Form.isSpared (Char.ofNat n) = true →
      sparedInQuery (Char.ofNat n) = true := by
    decide +kernel
  have hspared : ∀ c, Form.isSpared c = true → sparedInQuery c = true := by
    intro c hc
    have hc' := hall c.toNat (Form.lt_of_isSpared hc)
    rw [Char.ofNat_toNat] at hc'
    exact hc' hc
  exact Form.forall_encodePairs hspared (by decide) (by decide) (by decide) (by decide) ps

/-! ## What is written is read -/

/-- The user and the password as they are written. -/
def Authority.userinfo (a : Authority) : List Char :=
  match a.password with
  | some p => a.user ++ ':' :: p ++ ['@']
  | none => if a.user.isEmpty then [] else a.user ++ ['@']

/-- The host and the port as they are written. -/
def Authority.place (a : Authority) : List Char :=
  a.host.render ++ match a.port with
    | some n => ':' :: Nat.toDigits 10 n
    | none => []

theorem Authority.render_eq (a : Authority) : a.render = '/' :: '/' :: (a.userinfo ++ a.place) := by
  obtain ⟨user, password, host, port⟩ := a
  cases password <;> cases port <;> simp [render, userinfo, place]

/-- A database's URL that is written with what each of its parts spares. -/
structure IsSpelled (u : Url) (a : Authority) (query : List Char) : Prop where
  scheme : u.scheme = postgresql
  hasAuthority : u.authority = some a
  hasHost : a.host.render ≠ []
  slash : ∃ rest, u.path = '/' :: rest
  hasQuery : u.query = some query
  user : ∀ c ∈ a.user, sparedInUserinfo c = true
  password : ∀ p, a.password = some p → ∀ c ∈ p, sparedInUserinfo c = true
  host : ∀ c ∈ a.host.render, isHostChar c = true
  path : ∀ c ∈ u.path, sparedInPath c = true
  query : ∀ c ∈ query, sparedInQuery c = true
  fragment : ∀ f, u.fragment = some f → ∀ c ∈ f, sparedInFragment c = true

/-- No blank, nor anything before it. -/
def isGraphic (c : Char) : Bool := decide (0x20 < c.toNat)

theorem graphic_of_hostChar {c : Char} (h : isHostChar c = true) :
    isGraphic c = true ∧ c ≠ '/' ∧ opensTail c = false ∧ c ≠ '@' := by
  simp only [isHostChar, Bool.and_eq_true, List.contains_cons, List.contains_nil, Bool.or_false,
    Bool.not_eq_true', Bool.or_eq_false_iff, beq_eq_false_iff_ne] at h
  exact ⟨h.1, h.2.1, by simp [opensTail, h.2.2.1, h.2.2.2.1], h.2.2.2.2⟩

theorem hostChar_of_userinfo {c : Char} (h : sparedInUserinfo c = true) : isHostChar c = true := by
  refine of_kept (P := fun c => isHostChar c = true) ?_ (by decide +kernel) h
  intro c hc
  simp only [sparedInUserinfo, sparedInPath, sparedInFragment, Bool.and_eq_true] at hc
  exact hc.1.1.1

theorem controls_of_path {c : Char} (h : sparedInPath c = true) : sparedByControls c = true := by
  simp only [sparedInPath, sparedInFragment, Bool.and_eq_true] at h
  exact h.1.1

theorem graphic_of_path {c : Char} (h : sparedInPath c = true) :
    isGraphic c = true ∧ opensTail c = false :=
  of_kept (P := fun c => isGraphic c = true ∧ opensTail c = false) (fun _ => controls_of_path)
    (by decide +kernel) h

theorem graphic_of_query {c : Char} (h : sparedInQuery c = true) :
    isGraphic c = true ∧ (c == '#') = false := by
  refine of_kept (P := fun c => isGraphic c = true ∧ (c == '#') = false) ?_ (by decide +kernel) h
  intro c hc
  simp only [sparedInQuery, Bool.and_eq_true] at hc
  exact hc.1

theorem graphic_of_fragment {c : Char} (h : sparedInFragment c = true) : isGraphic c = true := by
  refine of_kept (P := fun c => isGraphic c = true) ?_ (by decide +kernel) h
  intro c hc
  simp only [sparedInFragment, Bool.and_eq_true] at hc
  exact hc.1

/-- User, password and host are written with what each of them spares. -/
structure Authority.IsSpelled (a : Authority) : Prop where
  user : ∀ c ∈ a.user, sparedInUserinfo c = true
  password : ∀ p, a.password = some p → ∀ c ∈ p, sparedInUserinfo c = true
  host : ∀ c ∈ a.host.render, isHostChar c = true

namespace Authority.IsSpelled

variable {a : Authority}

theorem place_chars (h : a.IsSpelled) : ∀ c ∈ a.place, isHostChar c = true := by
  intro c hc
  rcases List.mem_append.1 hc with hc | hc
  · exact h.host c hc
  · split at hc
    · next n _ =>
      rcases List.mem_cons.1 hc with rfl | hc
      · decide
      · have hdigit : ∀ d < 10, isHostChar (Nat.digitChar d) = true := by decide
        obtain ⟨d, hd, rfl⟩ := mem_toDigits (by decide) n c hc
        exact hdigit d hd
    · simp at hc

theorem userinfo_chars (h : a.IsSpelled) : ∀ c ∈ a.userinfo, isHostChar c = true ∨ c = '@' := by
  intro c hc
  unfold Authority.userinfo at hc
  split at hc
  · next p hp =>
    simp only [List.mem_append, List.mem_cons, List.not_mem_nil, or_false] at hc
    obtain (hc | rfl | hc) | rfl := hc
    · exact .inl (hostChar_of_userinfo (h.user c hc))
    · exact .inl (by decide)
    · exact .inl (hostChar_of_userinfo (h.password p hp c hc))
    · exact .inr rfl
  · split at hc
    · simp at hc
    · simp only [List.mem_append, List.mem_cons, List.not_mem_nil, or_false] at hc
      obtain hc | rfl := hc
      · exact .inl (hostChar_of_userinfo (h.user c hc))
      · exact .inr rfl

/-- What is written of user, password, host and port holds nothing that ends it. -/
theorem authority_chars (h : a.IsSpelled) :
    ∀ c ∈ a.userinfo ++ a.place, isGraphic c = true ∧ (c == '/') = false ∧ opensTail c = false := by
  have hhost : ∀ c, isHostChar c = true → isGraphic c = true ∧ (c == '/') = false ∧
      opensTail c = false := by
    intro c hc
    obtain ⟨hgraphic, hslash, htail, -⟩ := graphic_of_hostChar hc
    exact ⟨hgraphic, by simpa using hslash, htail⟩
  intro c hc
  rcases List.mem_append.1 hc with hc | hc
  · rcases h.userinfo_chars c hc with hc | rfl
    · exact hhost c hc
    · decide
  · exact hhost c (h.place_chars c hc)

end Authority.IsSpelled

/-- From the blank on nothing is dropped. -/
theorem kept_of_le {c : Char} (h : 0x20 ≤ c.toNat) : isDropped c = false := by
  simp only [isDropped, Bool.or_eq_false_iff, beq_eq_false_iff_ne]
  refine ⟨⟨?_, ?_⟩, ?_⟩
  all_goals
    rintro rfl
    exact absurd h (by decide)

theorem kept_of_graphic {c : Char} (h : isGraphic c = true) : isDropped c = false :=
  kept_of_le (Nat.le_of_lt (of_decide_eq_true h))

theorem parse_graphic {s : List Char} (hne : s ≠ []) (hs : ∀ c ∈ s, isGraphic c = true) :
    parse (String.ofList (opening ++ s)) = parseAfterScheme postgresql ('/' :: '/' :: s) := by
  have hlast : 0x20 < (s.getLast hne).toNat := by
    simpa [isGraphic] using hs _ (List.getLast_mem hne)
  have hkept : s.filter (!isDropped ·) = s := List.filter_eq_self.2 fun c hc => by
    rw [kept_of_graphic (hs c hc), Bool.not_false]
  have hread := parse_opening s.dropLast hlast
  rw [List.dropLast_append_getLast hne, hkept] at hread
  exact hread

/-- Query and fragment as they are written. -/
def writtenTail (u : Url) (query : List Char) : List Char :=
  '?' :: (query ++ (u.fragment.map ('#' :: ·)).getD [])

namespace IsSpelled

variable {u : Url} {a : Authority} {query : List Char}

theorem render_eq (h : u.IsSpelled a query) :
    u.render = String.ofList
      (opening ++ (a.userinfo ++ a.place ++ (u.path ++ u.writtenTail query))) := by
  have hpath : u.writtenPath = u.path := by simp [writtenPath, h.hasAuthority]
  unfold render
  rw [h.hasAuthority, h.hasQuery, hpath, h.scheme]
  simp only [Option.map_some, Option.getD_some, Authority.render_eq, writtenTail]
  congr 1
  simp [opening, postgresql]

theorem spelledAuthority (h : u.IsSpelled a query) : a.IsSpelled := ⟨h.user, h.password, h.host⟩

theorem tail_chars (h : u.IsSpelled a query) : ∀ c ∈ u.writtenTail query, isGraphic c = true := by
  intro c hc
  rcases List.mem_cons.1 hc with rfl | hc
  · decide
  rcases List.mem_append.1 hc with hc | hc
  · exact (graphic_of_query (h.query c hc)).1
  · cases hfragment : u.fragment with
    | none => simp [hfragment] at hc
    | some f =>
      simp only [hfragment, Option.map_some, Option.getD_some, List.mem_cons] at hc
      obtain rfl | hc := hc
      · decide
      · exact graphic_of_fragment (h.fragment f hfragment c hc)

/-- The parts of what is written. -/
theorem parts (h : u.IsSpelled a query) :
    authorityText (a.userinfo ++ a.place ++ (u.path ++ u.writtenTail query)) =
      a.userinfo ++ a.place ∧
      pathText (a.userinfo ++ a.place ++ (u.path ++ u.writtenTail query)) = u.path ∧
        tailText (a.userinfo ++ a.place ++ (u.path ++ u.writtenTail query)) =
          u.writtenTail query := by
  obtain ⟨rest, hslash⟩ := h.slash
  have hfront : ∀ c ∈ a.userinfo ++ a.place ++ u.path, (!opensTail c) = true := by
    intro c hc
    rcases List.mem_append.1 hc with hc | hc
    · simp [(h.spelledAuthority.authority_chars c hc).2.2]
    · simp [(graphic_of_path (h.path c hc)).2]
  have htail : splitAtFirst opensTail (a.userinfo ++ a.place ++ (u.path ++ u.writtenTail query)) =
      (a.userinfo ++ a.place ++ u.path, u.writtenTail query) := by
    rw [← List.append_assoc]
    exact Prod.ext_iff.2 (Form.takeWhile_append_cons hfront (by decide))
  have hauthority : ∀ c ∈ a.userinfo ++ a.place, (!(c == '/')) = true := by
    intro c hc
    simp only [(h.spelledAuthority.authority_chars c hc).2.1, Bool.not_false]
  have hsplit : splitAtFirst (· == '/') (a.userinfo ++ a.place ++ u.path) =
      (a.userinfo ++ a.place, u.path) := by
    rw [hslash]
    exact Prod.ext_iff.2 (Form.takeWhile_append_cons hauthority (by decide))
  refine ⟨?_, ?_, congrArg Prod.snd htail⟩
  · rw [authorityText, htail, hsplit]
  · rw [pathText, htail, hsplit]

theorem parseTail_written (h : u.IsSpelled a query) :
    (parseTail .plain (u.writtenTail query)).1 = some query := by
  have hquery : ∀ c ∈ '?' :: query, (!(c == '#')) = true := by
    intro c hc
    rcases List.mem_cons.1 hc with rfl | hc
    · decide
    · simp [(graphic_of_query (h.query c hc)).2]
  have hsplit : (splitAtFirst (· == '#') (u.writtenTail query)).1 = '?' :: query := by
    unfold writtenTail
    cases u.fragment with
    | none =>
      have hself := Form.takeWhile_eq_self hquery
      simpa [splitAtFirst] using hself
    | some f => exact (Form.takeWhile_append_cons (t := f) (c := '#') hquery (by decide)).1
  unfold parseTail
  simp only [hsplit, sparedInQuery_plain, encode_eq_self h.query]

theorem afterLast_written (h : u.IsSpelled a query) :
    afterLast '@' (a.userinfo ++ a.place) = a.place := by
  have hplace : '@' ∉ a.place :=
    fun hmem => (graphic_of_hostChar (h.spelledAuthority.place_chars _ hmem)).2.2.2 rfl
  have huserinfo : a.userinfo = [] ∨ ∃ info, a.userinfo = info ++ ['@'] := by
    unfold Authority.userinfo
    split
    · exact .inr ⟨_, rfl⟩
    · split
      · exact .inl rfl
      · exact .inr ⟨_, rfl⟩
  obtain hnone | ⟨info, hinfo⟩ := huserinfo
  · rw [hnone, List.nil_append, afterLast_of_notMem hplace]
  · rw [hinfo, List.append_assoc]
    exact afterLast_append info hplace

/-- **What is written is read part by part**, the host and the port for themselves. -/
theorem parse_render (h : u.IsSpelled a query) :
    ∃ user password fragment, parse u.render =
      (place? a.place).map fun (host, port, more) =>
        ⟨postgresql, some ⟨user, password, host, port⟩, pathOf (more ++ u.path), some query,
          fragment⟩ := by
  have hplace : a.place ≠ [] := by
    unfold Authority.place
    exact List.append_ne_nil_of_left_ne_nil h.hasHost _
  have hchars : ∀ c ∈ a.userinfo ++ a.place ++ (u.path ++ u.writtenTail query),
      isGraphic c = true := by
    intro c hc
    rcases List.mem_append.1 hc with hc | hc
    · exact (h.spelledAuthority.authority_chars c hc).1
    · rcases List.mem_append.1 hc with hc | hc
      · exact (graphic_of_path (h.path c hc)).1
      · exact h.tail_chars c hc
  have hne : a.userinfo ++ a.place ++ (u.path ++ u.writtenTail query) ≠ [] := by simp [writtenTail]
  obtain ⟨hauthority, hpath, htail⟩ := h.parts
  obtain ⟨user, password, hread⟩ := parseAuthority_place (s := a.userinfo ++ a.place)
    (u.path ++ u.writtenTail query).head? (by rwa [h.afterLast_written])
  refine ⟨user, password, (parseTail .plain (u.writtenTail query)).2, ?_⟩
  rw [h.render_eq, parse_graphic hne hchars, parseAfterScheme_postgresql, hauthority, hpath, htail,
    hread, h.afterLast_written, h.parseTail_written]
  cases place? a.place <;> rfl

end IsSpelled

end Stairway.Url
