import Mathlib.Data.List.DropRight
import Stairway.Proofs.Url.Spelling

/-!
# Where the query of a URL stands

A URL that was read is written with nothing in a part that would end it (`IsWritten`), whether it
has an authority, only a path, or an opaque one (`isWritten_of_parse`). So its query is what stands
in its text behind the first question mark and before the fragment (`IsWritten.queryOf_render`), and
whoever reads the text again gets the same query (`IsWritten.query_of_parse`).

Whether the text is accepted again, and with which host, is not said here.
-/

namespace Stairway.Url

open Percent

variable {scheme s : List Char} {u : Url}

/-! ## Addresses -/

namespace IsAddressScheme

theorem kind (h : IsAddressScheme scheme) : SchemeKind.of scheme = .plain := by
  rcases h with rfl | rfl <;> decide

theorem defaultPort (h : IsAddressScheme scheme) : Url.defaultPort scheme = none := by
  rcases h with rfl | rfl <;> decide

theorem marks (h : IsAddressScheme scheme) : ∀ c ∈ scheme, opensTail c = false := by
  have hall : (scheme.all fun c => !opensTail c) = true := by
    rcases h with rfl | rfl <;> decide
  intro c hc
  simpa using List.all_eq_true.1 hall c hc

end IsAddressScheme

theorem isSpelled_of_readAuthority {info more : List Char} {a : Authority}
    (h : readAuthority info s = .ok (a, more)) : a.IsSpelled := by
  obtain ⟨hostText, rest, -, hhost, -⟩ := place?_ok (readAuthority_ok h)
  unfold readAuthority at h
  cases hplace : place? s with
  | error cause =>
    rw [hplace] at h
    exact absurd h nofun
  | ok found =>
    simp only [hplace, Except.bind] at h
    split at h
    · cases h
    · cases h
      refine ⟨keep_of_mem_encode (by decide) (by decide) _, fun p hp => ?_,
        hostChar_of_parseOpaque hhost⟩
      split at hp
      · cases hp
      · cases hp
        exact keep_of_mem_encode (by decide) (by decide) _

/-! ## Parts that are free of marks -/

/-- No part of a URL holds what would end it. -/
structure IsWritten (u : Url) : Prop where
  authority : ∀ a, u.authority = some a → a.IsSpelled
  path : (∀ c ∈ u.path, sparedInPath c = true) ∨
    u.hasOpaquePath = true ∧ ∀ c ∈ u.path, sparedByControls c = true ∧ opensTail c = false
  query : ∀ q, u.query = some q → ∀ c ∈ q, sparedInQuery c = true
  fragment : ∀ f, u.fragment = some f → ∀ c ∈ f, sparedInFragment c = true

/-- An opaque path that is the end of a URL does not end in a blank. -/
def EndsPlainly (u : Url) : Prop :=
  u.hasOpaquePath = true → u.query = none → u.fragment = none → u.path.getLast? ≠ some ' '

theorem hasOpaquePath_iff : u.hasOpaquePath = true ↔ u.authority = none ∧
    u.path.head? ≠ some '/' := by
  simp only [hasOpaquePath, Bool.and_eq_true, Option.isNone_iff_eq_none, decide_eq_true_eq]

/-- An opaque text is written without the slash that it does not begin with. -/
theorem head?_encode {keep : Char → Bool} {c : Char} (hc : c ≠ '%')
    (h : (encode keep s).head? = some c) :
    s.head? = some c := by
  cases s with
  | nil => exact h
  | cons d s =>
    cases hkeep : keep d with
    | true =>
      rw [encode_cons, hkeep] at h
      exact h
    | false =>
      obtain ⟨more, hmore⟩ := encode_head hkeep s
      rw [hmore] at h
      exact absurd (Option.some_inj.1 h).symm hc

/-- **What an address is read as**: with an authority, with a path only, or opaque. -/
theorem parseAfterScheme_ok (hscheme : IsAddressScheme scheme)
    (h : parseAfterScheme scheme s = .ok u) :
    u.IsWritten ∧ u.scheme = scheme ∧ u.query = (parseTail .plain (tailText s)).1 := by
  obtain ⟨hquery, hfragment⟩ := parseTail_spared (tailText s)
  unfold parseAfterScheme at h
  simp only [hscheme.kind, ne_eq, not_true_eq_false, decide_false, Bool.false_and, Bool.or_false,
    if_true] at h
  split at h
  -- an authority, and a path that it may go without
  · next front _ =>
    simp only [bind, Except.bind, pure, Except.pure] at h
    split at h
    · cases h
    · next found hauthority =>
      obtain ⟨a, more⟩ := found
      obtain ⟨info, hread⟩ := parseAuthority_ok hscheme.defaultPort hauthority
      cases h
      refine ⟨⟨?_, .inl ?_, hquery, hfragment⟩, rfl, rfl⟩
      · rintro _ ⟨⟩
        exact isSpelled_of_readAuthority hread
      · dsimp only
        split
        · exact nofun
        · split <;> exact Path.spared_of_mem_ofText _ _
  -- a path behind one slash
  · cases h
    exact ⟨⟨nofun, .inl (Path.spared_of_mem_ofText _ _), hquery, hfragment⟩, rfl, rfl⟩
  -- anything else: only controls are coded, so that marks are kept out by where the text was cut
  · next front _ hslash =>
    cases h
    have hloose : (encode sparedByControls (splitAtFirst opensTail s).1).head? ≠ some '/' := by
      intro hhead
      obtain ⟨rest, hrest⟩ := List.head?_eq_some_iff.1 (head?_encode (by decide) hhead)
      exact hslash rest hrest
    have hmarks : ∀ c ∈ encode sparedByControls (splitAtFirst opensTail s).1,
        opensTail c = false := by
      refine forall_encode (fun c hc _ => ?_) (by decide) (by decide)
      simpa using List.mem_takeWhile_imp hc
    refine ⟨⟨nofun, .inr ⟨hasOpaquePath_iff.2 ⟨rfl, hloose⟩, fun c hc => ⟨?_, hmarks c hc⟩⟩, hquery,
      hfragment⟩,
      rfl, rfl⟩
    exact keep_of_mem_encode (by decide) (by decide) _ c hc

theorem scheme_of_parseAfterScheme (h : parseAfterScheme scheme s = .ok u) : u.scheme = scheme := by
  unfold parseAfterScheme at h
  simp only [bind, Except.bind, pure, Except.pure] at h
  cases hkind : SchemeKind.of scheme with
  | file =>
    simp only [hkind] at h
    split at h
    · split at h
      · cases h
      · cases h
        rfl
    · cases h
      rfl
  | web =>
    simp only [hkind] at h
    split at h
    · cases h
    · cases h
      rfl
  | plain =>
    simp only [hkind] at h
    split at h
    · split at h
      · cases h
      · cases h
        rfl
    · cases h
      rfl
    · cases h
      rfl

theorem isWritten_of_parse {text : String} (h : parse text = .ok u)
    (hscheme : IsAddressScheme u.scheme) :
    u.IsWritten := by
  unfold parse at h
  dsimp only at h
  split at h
  · cases h
  · next scheme rest _ =>
    rw [scheme_of_parseAfterScheme h] at hscheme
    exact (parseAfterScheme_ok hscheme h).1

/-- Without its query a URL is written as before, but for the blanks that would be its end. -/
theorem IsWritten.withoutQuery (h : u.IsWritten) :
    u.withoutQuery.IsWritten ∧ u.withoutQuery.EndsPlainly := by
  unfold Url.withoutQuery
  dsimp only
  split
  · next hcut =>
    obtain ⟨hloose, -⟩ := Bool.and_eq_true_iff.1 hcut
    obtain ⟨hauthority, hhead⟩ := hasOpaquePath_iff.1 hloose
    have hpath : ∀ c ∈ u.path, sparedByControls c = true ∧ opensTail c = false := by
      obtain hpath | ⟨-, hpath⟩ := h.path
      · exact fun c hc => ⟨controls_of_path (hpath c hc), (graphic_of_path (hpath c hc)).2⟩
      · exact hpath
    have hstart : u.path.rdropWhile (· == ' ') <+: u.path := List.rdropWhile_prefix _ _
    have hhead' : (u.path.rdropWhile (· == ' ')).head? ≠ some '/' := fun hslash => by
      obtain ⟨rest, hrest⟩ := List.head?_eq_some_iff.1 hslash
      obtain ⟨blanks, hblanks⟩ := hstart
      rw [← hblanks, hrest] at hhead
      exact hhead rfl
    refine ⟨⟨h.authority, .inr ⟨?_, fun c hc => hpath c (hstart.subset hc)⟩, nofun, h.fragment⟩,
      fun _ _ _ hlast => ?_⟩
    · exact hasOpaquePath_iff.2 ⟨hauthority, hhead'⟩
    · have hblank : (u.path.rdropWhile (· == ' ')).getLast? = some ' ' := hlast
      have hne := List.ne_nil_of_mem (List.mem_of_getLast? hblank)
      rw [List.getLast?_eq_some_getLast hne] at hblank
      exact List.rdropWhile_last_not _ _ hne (beq_iff_eq.2 (Option.some_inj.1 hblank))
  · next hkept =>
    exact ⟨⟨h.authority, h.path, nofun, h.fragment⟩, fun hloose _ hfragment =>
      absurd (Bool.and_eq_true_iff.2 ⟨hloose, Option.isNone_iff_eq_none.2 hfragment⟩) hkept⟩

/-! ## The text -/

/-- The query of a text: what stands behind the first question mark and before the fragment. -/
def queryOf (text : List Char) : Option (List Char) :=
  match (splitAtFirst (· == '?') (splitAtFirst (· == '#') text).1).2 with
  | [] => none
  | _ :: q => some q

/-- What is written behind the scheme and before the query. -/
def front (u : Url) : List Char := (u.authority.map (·.render)).getD [] ++ u.writtenPath

def queryPart (u : Url) : List Char := (u.query.map ('?' :: ·)).getD []

def fragmentPart (u : Url) : List Char := (u.fragment.map ('#' :: ·)).getD []

theorem render_eq_parts (u : Url) :
    u.render = String.ofList (u.scheme ++ ':' :: (u.front ++ (u.queryPart ++ u.fragmentPart))) := by
  simp only [render, front, queryPart, fragmentPart, List.append_assoc, List.cons_append]

theorem queryPart_eq_nil (h : u.queryPart = []) : u.query = none := by
  unfold queryPart at h
  cases hquery : u.query with
  | none => rfl
  | some q => simp [hquery] at h

theorem fragmentPart_eq_nil (h : u.fragmentPart = []) : u.fragment = none := by
  unfold fragmentPart at h
  cases hfragment : u.fragment with
  | none => rfl
  | some f => simp [hfragment] at h

theorem mark_of_mem_fragmentPart : ∀ c ∈ u.fragmentPart.head?, (c == '#') = true := by
  unfold fragmentPart
  cases u.fragment <;> simp

theorem mark_of_mem_queryPart : ∀ c ∈ u.queryPart.head?, (c == '?') = true := by
  unfold queryPart
  cases u.query <;> simp

/-- An opaque path is all that stands before the query, and needs nothing to set it off. -/
theorem front_of_hasOpaquePath (h : u.hasOpaquePath = true) : u.front = u.path := by
  obtain ⟨hnone, hhead⟩ := hasOpaquePath_iff.1 h
  have hslashes : (u.path.take 2 == ['/', '/']) = false := by
    refine beq_eq_false_iff_ne.2 fun htwo => hhead ?_
    have hfirst := congrArg List.head? htwo
    rwa [List.head?_take, if_neg (by decide)] at hfirst
  simp [front, writtenPath, hnone, hslashes]

namespace IsWritten

/-- Only an opaque path has blanks, and then it stands alone. -/
theorem front_chars (h : u.IsWritten) :
    (∀ c ∈ u.front, isGraphic c = true ∧ opensTail c = false) ∨
      u.hasOpaquePath = true ∧ u.front = u.path ∧ ∀ c ∈ u.path, sparedByControls c = true ∧
      opensTail c = false := by
  obtain hpath | ⟨hloose, hpath⟩ := h.path
  · refine .inl fun c hc => ?_
    unfold front at hc
    rcases List.mem_append.1 hc with hc | hc
    · cases hauthority : u.authority with
      | none => simp [hauthority] at hc
      | some a =>
        rw [hauthority, Option.map_some, Option.getD_some, Authority.render_eq] at hc
        simp only [List.mem_cons] at hc
        obtain rfl | rfl | hc := hc
        · decide
        · decide
        · obtain ⟨hgraphic, -, htail⟩ := (h.authority a hauthority).authority_chars c hc
          exact ⟨hgraphic, htail⟩
    · have hwritten : c = '/' ∨ c = '.' ∨ c ∈ u.path := by
        unfold writtenPath at hc
        split at hc
        · simpa using hc
        · exact .inr (.inr hc)
      obtain rfl | rfl | hc := hwritten
      · decide
      · decide
      · exact graphic_of_path (hpath c hc)
  · exact .inr ⟨hloose, front_of_hasOpaquePath hloose, hpath⟩

theorem front_marks (h : u.IsWritten) : ∀ c ∈ u.front, opensTail c = false := by
  obtain hgraphic | ⟨-, hfront, hpath⟩ := h.front_chars
  · exact fun c hc => (hgraphic c hc).2
  · exact fun c hc => (hpath c (hfront ▸ hc)).2

theorem queryPart_chars (h : u.IsWritten) : ∀ c ∈ u.queryPart, isGraphic c = true ∧
    (c == '#') = false := by
  unfold queryPart
  cases hquery : u.query with
  | none => simp
  | some q =>
    intro c hc
    rcases List.mem_cons.1 hc with rfl | hc
    · decide
    · exact graphic_of_query (h.query q hquery c hc)

theorem fragmentPart_chars (h : u.IsWritten) : ∀ c ∈ u.fragmentPart, isGraphic c = true := by
  unfold fragmentPart
  cases hfragment : u.fragment with
  | none => simp
  | some f =>
    intro c hc
    rcases List.mem_cons.1 hc with rfl | hc
    · decide
    · exact graphic_of_fragment (h.fragment f hfragment c hc)

/-- The fragment is cut off where it was put. -/
theorem splitAtFragment (h : u.IsWritten) (before : List Char)
    (hbefore : ∀ c ∈ before, opensTail c = false) :
    splitAtFirst (· == '#') (before ++ (u.queryPart ++ u.fragmentPart)) =
      (before ++ u.queryPart, u.fragmentPart) := by
  rw [← List.append_assoc]
  refine splitAtFirst_append (fun c hc => ?_) mark_of_mem_fragmentPart
  rcases List.mem_append.1 hc with hc | hc
  · exact (Bool.or_eq_false_iff.1 (hbefore c hc)).2
  · exact (h.queryPart_chars c hc).2

/-- **The query of a URL as it is written.** -/
theorem queryOf_render (h : u.IsWritten) (hscheme : IsAddressScheme u.scheme) :
    queryOf u.render.toList = u.query := by
  have hbefore : ∀ c ∈ u.scheme ++ ':' :: u.front, opensTail c = false := by
    intro c hc
    rcases List.mem_append.1 hc with hc | hc
    · exact hscheme.marks c hc
    · rcases List.mem_cons.1 hc with rfl | hc
      · decide
      · exact h.front_marks c hc
  have htext : u.render.toList = u.scheme ++ ':' :: u.front ++ (u.queryPart ++ u.fragmentPart) := by
    rw [render_eq_parts, String.toList_ofList, List.append_assoc, List.cons_append]
  have hmark : splitAtFirst (· == '?') (u.scheme ++ ':' :: u.front ++ u.queryPart) =
      (u.scheme ++ ':' :: u.front, u.queryPart) :=
    splitAtFirst_append (fun c hc => (Bool.or_eq_false_iff.1 (hbefore c hc)).1)
      mark_of_mem_queryPart
  rw [queryOf, htext, h.splitAtFragment _ hbefore, hmark, queryPart]
  cases u.query <;> rfl

theorem tailText_written (h : u.IsWritten) :
    tailText (u.front ++ (u.queryPart ++ u.fragmentPart)) = u.queryPart ++ u.fragmentPart := by
  refine congrArg Prod.snd (splitAtFirst_append h.front_marks fun c hc => ?_)
  unfold queryPart fragmentPart at hc
  cases hquery : u.query with
  | some q =>
    rw [hquery] at hc
    obtain rfl : '?' = c := by simpa using hc
    decide
  | none =>
    cases hfragment : u.fragment with
    | some f =>
      rw [hquery, hfragment] at hc
      obtain rfl : '#' = c := by simpa using hc
      decide
    | none => simp [hquery, hfragment] at hc

theorem parseTail_parts (h : u.IsWritten) :
    (parseTail .plain (u.queryPart ++ u.fragmentPart)).1 = u.query := by
  have hsplit := h.splitAtFragment [] nofun
  rw [List.nil_append, List.nil_append] at hsplit
  unfold parseTail
  simp only [hsplit, sparedInQuery_plain]
  unfold queryPart
  cases hquery : u.query with
  | none => rfl
  | some q => exact congrArg some (encode_eq_self (h.query q hquery))

/-- No blank stands at the end. -/
theorem graphic_last (h : u.IsWritten) (hend : u.EndsPlainly) :
    ∀ c ∈ (u.front ++ (u.queryPart ++ u.fragmentPart)).getLast?, isGraphic c = true := by
  intro c hc
  rw [List.getLast?_append] at hc
  cases hlast : (u.queryPart ++ u.fragmentPart).getLast? with
  | some d =>
    rw [hlast] at hc
    cases hc
    rcases List.mem_append.1 (List.mem_of_getLast? hlast) with hmem | hmem
    · exact (h.queryPart_chars c hmem).1
    · exact h.fragmentPart_chars c hmem
  | none =>
    rw [hlast, Option.none_or] at hc
    have hmem := List.mem_of_getLast? hc
    obtain hgraphic | ⟨hloose, hfront, hpath⟩ := h.front_chars
    · exact (hgraphic c hmem).1
    · rw [hfront] at hc hmem
      obtain ⟨hquery, hfragment⟩ := List.append_eq_nil_iff.1 (List.getLast?_eq_none_iff.1 hlast)
      have hblank : c ≠ ' ' := by
        rintro rfl
        exact hend hloose (queryPart_eq_nil hquery) (fragmentPart_eq_nil hfragment) hc
      exact of_kept (P := fun c => c ≠ ' ' → isGraphic c = true) (fun _ hc => hc)
        (by decide +kernel) (hpath c hmem).1
        hblank

/-- **Whoever reads the text again gets the same query.** -/
theorem query_of_parse (h : u.IsWritten) (hscheme : IsAddressScheme u.scheme) (hend : u.EndsPlainly)
    {v : Url} (hread : parse u.render = .ok v) : v.query = u.query := by
  have hkept : ∀ c ∈ u.front ++ (u.queryPart ++ u.fragmentPart), isDropped c = false := by
    intro c hc
    simp only [List.mem_append] at hc
    obtain hc | hc | hc := hc
    · obtain hchars | ⟨-, hfront, hpath⟩ := h.front_chars
      · exact kept_of_graphic (hchars c hc).1
      · have hspared := (hpath c (hfront ▸ hc)).1
        exact kept_of_le (of_decide_eq_true (Bool.and_eq_true_iff.1 hspared).1)
    · exact kept_of_graphic (h.queryPart_chars c hc).1
    · exact kept_of_graphic (h.fragmentPart_chars c hc)
  have hlast : ∀ c ∈ (u.front ++ (u.queryPart ++ u.fragmentPart)).getLast?,
      0x20 < c.toNat := fun c hc =>
    of_decide_eq_true (h.graphic_last hend c hc)
  rw [render_eq_parts, hscheme.parse_eq hlast,
    List.filter_eq_self.2 fun c hc => by simp [hkept c hc]] at hread
  rw [(parseAfterScheme_ok hscheme hread).2.2, h.tailText_written, h.parseTail_parts]

end IsWritten

end Stairway.Url
