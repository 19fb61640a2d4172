import Stairway.Proofs.Url.Percent
import Stairway.Url.Basic

/-!
# Paths, there and back

A path is spelled from the segments of a text, each coded behind a slash (`spell`), once the dot
segments are gone. Reading it back gives the text as it was, unless the text holds a group of
percent coding, or a segment was left out, or one of the characters that a URL drops
(`decode_ofText_iff`).

A dot segment costs the path at least a character (`length_decode_fold`), and nothing makes up for
it: that is why a text of which anything was left out never comes back.
-/

namespace Stairway.Url

open Stairway.Text Percent

theorem utf8_injective {s t : List Char} (h : Utf8.encode s = Utf8.encode t) : s = t := by
  have hbytes : s.utf8Encode = t.utf8Encode := congrArg List.toByteArray h
  have htext : some s.toArray = some t.toArray := by
    rw [← List.utf8Decode?_utf8Encode, ← List.utf8Decode?_utf8Encode, hbytes]
  simpa using htext

namespace Path

/-! ## Segments behind slashes -/

/-- Segments as they stand in a path. -/
def spell (segs : List (List Char)) : List Char := segs.flatMap ('/' :: ·)

@[simp] theorem spell_nil : spell [] = [] := rfl

@[simp] theorem spell_cons (s : List Char) (segs : List (List Char)) :
    spell (s :: segs) = '/' :: s ++ spell segs := rfl

theorem spell_append (front back : List (List Char)) :
    spell (front ++ back) = spell front ++ spell back := by
  simp [spell]

theorem joinOnto_eq (closed : List (List Char)) (last : List Char) :
    joinOnto closed last = spell (closed.reverse ++ [last]) := by
  have hslash : ∀ segs : List (List Char),
      '/' :: (segs.flatMap fun s => s ++ ['/']) ++ last = spell (segs ++ [last]) := by
    intro segs
    induction segs with
    | nil => simp
    | cons s segs ih => simpa using ih
  exact hslash closed.reverse

theorem segments_ne_nil (text : List Char) : segments (· == '/') text ≠ [] := by
  cases text with
  | nil => simp [segments]
  | cons c rest =>
    rw [segments]
    split
    · simp
    · split <;> simp

theorem segments_slash (rest : List Char) :
    segments (· == '/') ('/' :: rest) = [] :: segments (· == '/') rest := rfl

theorem segments_char {c : Char} (hc : c ≠ '/') (rest : List Char) :
    ∃ s more, segments (· == '/') rest = s :: more ∧ segments (· == '/') (c :: rest) =
      (c :: s) :: more := by
  obtain ⟨s, more, hrest⟩ := List.exists_cons_of_ne_nil (segments_ne_nil rest)
  exact ⟨s, more, hrest, by rw [segments, if_neg (by simp [hc]), hrest]⟩

theorem spell_segments (text : List Char) : spell (segments (· == '/') text) = '/' :: text := by
  induction text with
  | nil => rfl
  | cons c rest ih =>
    by_cases hc : c = '/'
    · rw [hc, segments_slash, spell_cons, ih]
      rfl
    · obtain ⟨s, more, hrest, hsegments⟩ := segments_char hc rest
      rw [hrest, spell_cons] at ih
      have hjoined : s ++ spell more = rest := (List.cons.inj ih).2
      rw [hsegments, spell_cons, List.cons_append, List.cons_append, hjoined]

/-- A segment is a part of the text. -/
theorem infix_of_mem_segments {s text : List Char}
    (h : s ∈ segments (· == '/') text) : s <:+: text := by
  obtain ⟨front, back, hsplit⟩ := List.append_of_mem h
  have hspelled : ('/' :: s) <:+: ('/' :: text) := by
    rw [← spell_segments text, hsplit, spell_append, spell_cons, ← List.append_assoc]
    exact ⟨spell front, spell back, rfl⟩
  rcases List.infix_cons_iff.1 hspelled with hfront | hrest
  · exact ((List.cons_prefix_cons.1 hfront).2).isInfix
  · exact (List.suffix_cons '/' s).isInfix.trans hrest

theorem spell_encode {keep : Char → Bool} (hslash : keep '/' = true) (text : List Char) :
    spell ((segments (· == '/') text).map (encode keep)) = '/' :: encode keep text := by
  have hmap : ∀ segs : List (List Char),
      spell (segs.map (encode keep)) = encode keep (spell segs) := by
    intro segs
    induction segs with
    | nil => rfl
    | cons s segs ih =>
      rw [List.map_cons, spell_cons, spell_cons, ih]
      simp [encode, hslash]
  rw [hmap, spell_segments, encode_cons, if_pos hslash, List.singleton_append]

/-! ## What a path spells, decoded -/

theorem decode_slash (rest : List Char) :
    decode ('/' :: rest) = 0x2f :: decode rest := decode_cons rfl

/-- A slash belongs to no group. -/
theorem decode_append_slash (front back : List Char) :
    decode (front ++ '/' :: back) = decode front ++ 0x2f :: decode back := by
  induction front using groups with
  | nil => exact decode_slash back
  | group s byte rest hgroup ih =>
    obtain ⟨a, b, x, y, rfl, ha, hb, rfl⟩ := group?_eq_some_iff.1 hgroup
    have hfront : group? ('%' :: a :: b :: (rest ++ '/' :: back)) =
        some (UInt8.ofNat (16 * x + y), rest ++ '/' :: back) :=
      group?_eq_some_iff.2 ⟨a, b, x, y, rfl, ha, hb, rfl⟩
    rw [decode_of_group hgroup]
    exact (decode_of_group hfront).trans (congrArg _ ih)
  | char c rest hgroup ih =>
    have hnone : group? (c :: (rest ++ '/' :: back)) = none := by
      refine group?_eq_none_iff.2 fun a b more hc heq => ?_
      -- the slash is no digit, so both would be in front of it
      rcases rest with _ | ⟨a', _ | ⟨b', rest⟩⟩ <;> simp only [List.nil_append, List.cons_append,
        List.cons.injEq] at heq
      · exact Or.inl (heq.1 ▸ rfl)
      · exact Or.inr (heq.2.1 ▸ rfl)
      · obtain ⟨rfl, rfl, -⟩ := heq
        exact group?_eq_none_iff.1 hgroup _ _ rest hc rfl
    rw [decode_cons hgroup, List.append_assoc, ← ih]
    exact decode_cons hnone

/-- How many bytes segments come to, each with its slash. -/
def size : List (List Char) → Nat
  | [] => 0
  | s :: segs => (decode s).length + 1 + size segs

@[simp] theorem size_nil : size [] = 0 := rfl

@[simp] theorem size_cons (s : List Char) (segs : List (List Char)) :
    size (s :: segs) = (decode s).length + 1 + size segs := rfl

theorem size_append (front back : List (List Char)) :
    size (front ++ back) = size front + size back := by
  induction front with
  | nil => simp
  | cons s front ih => rw [List.cons_append, size_cons, ih, size_cons, ← Nat.add_assoc]

theorem size_reverse (segs : List (List Char)) : size segs.reverse = size segs := by
  induction segs with
  | nil => rfl
  | cons s segs ih =>
    rw [List.reverse_cons, size_append, ih, size_cons, size_cons, size_nil, Nat.add_comm]

theorem length_decode_spell (segs : List (List Char)) :
    (decode (spell segs)).length = size segs := by
  -- from the back, so that a slash is always before what follows
  induction segs using List.reverseRecOn with
  | nil => rfl
  | append_singleton segs s ih =>
    rw [spell_append, spell_cons, spell_nil, List.append_nil, decode_append_slash,
      List.length_append, List.length_cons, ih, size_append, size_cons, size_nil]

theorem length_decode_joinOnto (closed : List (List Char)) (last : List Char) :
    (decode (joinOnto closed last)).length = size closed + (decode last).length + 1 := by
  rw [joinOnto_eq, length_decode_spell, size_append, size_reverse, size_cons, size_nil]
  omega

/-! ## Dot segments -/

def isDots (s : List Char) : Bool := isDoubleDot s || isSingleDot s

theorem plainDots_eq_nil {s : List Char} (h : plainDots s = []) : s = [] := by
  unfold plainDots at h
  split at h <;> simp_all

/-- A dot at the front, coded or not, is read as one. -/
theorem plainDots_eq_cons {s rest : List Char} (h : plainDots s = '.' :: rest) :
    ∃ more, decode s = 0x2e :: decode more ∧ plainDots more = rest := by
  unfold plainDots at h
  split at h
  · next more => exact ⟨more, decode_of_group rfl, (List.cons.inj h).2⟩
  · next more => exact ⟨more, decode_of_group rfl, (List.cons.inj h).2⟩
  · next c more _ _ =>
    obtain ⟨rfl, hrest⟩ := List.cons.inj h
    exact ⟨more, decode_cons rfl, hrest⟩
  · exact absurd h (by simp)

theorem decode_of_singleDot {s : List Char} (h : isSingleDot s = true) : decode s = [0x2e] := by
  obtain ⟨more, hdecode, hmore⟩ := plainDots_eq_cons (beq_iff_eq.1 h)
  rw [hdecode, plainDots_eq_nil hmore]
  rfl

theorem decode_of_doubleDot {s : List Char} (h : isDoubleDot s = true) :
    decode s = [0x2e, 0x2e] := by
  obtain ⟨more, hdecode, hmore⟩ := plainDots_eq_cons (beq_iff_eq.1 h)
  obtain ⟨more', hdecode', hmore'⟩ := plainDots_eq_cons hmore
  rw [hdecode, hdecode', plainDots_eq_nil hmore']
  rfl

theorem size_up_le (closed : List (List Char)) : size (up closed) ≤ size closed := by
  cases closed with
  | nil => exact Nat.le_refl _
  | cons s rest =>
    rw [up]
    split
    · exact Nat.le_refl _
    · rw [size_cons]
      omega

/-- The path of segments after closed ones, one segment at a time; behind the last comes an empty
one if it is left out. -/
theorem fold_cons_cons (closed : List (List Char)) (s s' : List Char) (rest : List (List Char)) :
    fold closed (s :: s' :: rest) =
      if isDoubleDot s then fold (up closed) (s' :: rest)
      else if isSingleDot s then fold closed (s' :: rest)
      else fold (s :: closed) (s' :: rest) := by
  rw [fold]
  simp

/-- **Every dot segment costs the path something.** -/
theorem length_decode_fold (closed : List (List Char)) {segs : List (List Char)} (hne : segs ≠ []) :
    (decode (fold closed segs)).length + segs.countP isDots ≤ size closed + size segs := by
  induction segs generalizing closed with
  | nil => exact absurd rfl hne
  | cons s rest ih =>
    have hup := size_up_le closed
    by_cases hdouble : isDoubleDot s = true
    · have htwo : (decode s).length = 2 := by rw [decode_of_doubleDot hdouble]; rfl
      have hdots : isDots s = true := by simp [isDots, hdouble]
      rw [List.countP_cons_of_pos hdots, size_cons, htwo]
      cases rest with
      | nil =>
        rw [fold, if_pos hdouble, length_decode_joinOnto]
        simp only [List.countP_nil, size_nil, decode, List.length_nil]
        omega
      | cons s' rest =>
        have := ih (up closed) (by simp)
        rw [fold_cons_cons, if_pos hdouble]
        omega
    by_cases hsingle : isSingleDot s = true
    · have hone : (decode s).length = 1 := by rw [decode_of_singleDot hsingle]; rfl
      have hdots : isDots s = true := by simp [isDots, hsingle]
      rw [List.countP_cons_of_pos hdots, size_cons, hone]
      cases rest with
      | nil =>
        rw [fold, if_neg hdouble, if_pos hsingle, length_decode_joinOnto]
        simp only [List.countP_nil, size_nil, decode, List.length_nil]
        omega
      | cons s' rest =>
        have := ih closed (by simp)
        rw [fold_cons_cons, if_neg hdouble, if_pos hsingle]
        omega
    · have hdots : ¬ isDots s = true := by simp [isDots, hdouble, hsingle]
      rw [List.countP_cons_of_neg hdots, size_cons]
      cases rest with
      | nil =>
        rw [fold, if_neg hdouble, if_neg hsingle, length_decode_joinOnto]
        simp only [List.countP_nil, size_nil]
        omega
      | cons s' rest =>
        have := ih (s :: closed) (by simp)
        rw [fold_cons_cons, if_neg hdouble, if_neg hsingle]
        rw [size_cons] at this
        omega

/-- A path without dot segments is spelled as it is. -/
theorem fold_eq_spell (closed : List (List Char)) {segs : List (List Char)} (hne : segs ≠ [])
    (hdots : segs.countP isDots = 0) : fold closed segs = spell (closed.reverse ++ segs) := by
  induction segs generalizing closed with
  | nil => exact absurd rfl hne
  | cons s rest ih =>
    rw [List.countP_eq_zero] at hdots
    have hs : ¬ isDots s = true := hdots s List.mem_cons_self
    obtain ⟨hdouble, hsingle⟩ : ¬ isDoubleDot s = true ∧ ¬ isSingleDot s = true := by
      simpa [isDots] using hs
    cases rest with
    | nil => rw [fold, if_neg hdouble, if_neg hsingle, joinOnto_eq]
    | cons s' rest =>
      rw [fold_cons_cons, if_neg hdouble, if_neg hsingle, ih (s :: closed) (by simp),
        List.reverse_cons, List.append_assoc, List.singleton_append]
      exact List.countP_eq_zero.2 fun t ht => hdots t (List.mem_cons_of_mem _ ht)

/-! ## Which texts come back -/

theorem length_utf8_filter (p : Char → Bool) (s : List Char) :
    (Utf8.encode (s.filter p)).length + s.countP (!p ·) ≤ (Utf8.encode s).length := by
  induction s with
  | nil => exact Nat.le_refl _
  | cons c s ih =>
    have hc := length_utf8EncodeChar_pos c
    cases hp : p c with
    | true =>
      rw [List.filter_cons_of_pos hp, List.countP_cons_of_neg (by simp [hp]), utf8_cons, utf8_cons]
      simp only [List.length_append]
      omega
    | false =>
      rw [List.filter_cons_of_neg (by simp [hp]), List.countP_cons_of_pos (by simp [hp]), utf8_cons]
      simp only [List.length_append]
      omega

theorem ofText_eq_slash (text : List Char) : ∃ rest, ofText (· == '/') text = '/' :: rest := by
  have hfold : ∀ (segs closed : List (List Char)), ∃ rest, fold closed segs = '/' :: rest := by
    intro segs
    induction segs with
    | nil => exact fun closed => ⟨_, rfl⟩
    | cons s rest ih =>
      intro closed
      cases rest with
      | nil =>
        rw [fold]
        split
        · exact ⟨_, rfl⟩
        · split <;> exact ⟨_, rfl⟩
      | cons s' rest =>
        rw [fold_cons_cons]
        split
        · exact ih _
        · split <;> exact ih _
  exact hfold _ []

/-- Whether nothing of a text is dropped, read as a group of percent coding, or left out as a dot
segment. -/
structure IsPlain (text : List Char) : Prop where
  kept : ∀ c ∈ text, isDropped c = false
  noGroup : ¬ HoldsGroup text
  noDot : ['.'] ∉ segments (· == '/') text
  noDots : ['.', '.'] ∉ segments (· == '/') text

/-- The segments of a text, coded. -/
theorem decode_encode_path (text : List Char) : decode (encode sparedInPath text) = decode text :=
  decode_encode (by decide) sparedInPath_digit text

theorem ofText_eq_encode {text : List Char}
    (hdots : ((segments (· == '/') text).map (encode sparedInPath)).countP isDots = 0) :
    ofText (· == '/') text = '/' :: encode sparedInPath text := by
  rw [ofText, fold_eq_spell [] (by simpa using segments_ne_nil text) hdots, List.reverse_nil,
    List.nil_append, spell_encode (by decide)]

theorem length_decode_ofText (text : List Char) :
    (decode (ofText (· == '/') text)).length +
      ((segments (· == '/') text).map (encode sparedInPath)).countP isDots ≤
        (decode text).length + 1 := by
  have hne : (segments (· == '/') text).map (encode sparedInPath) ≠ [] := by
    simpa using segments_ne_nil text
  have hsize : size ((segments (· == '/') text).map (encode sparedInPath)) =
      (decode text).length + 1 := by
    rw [← length_decode_spell, spell_encode (by decide), decode_slash, List.length_cons,
      decode_encode_path]
  have hfold := length_decode_fold [] hne
  rw [size_nil, hsize, Nat.zero_add] at hfold
  exact hfold

theorem IsPlain.noSegment {text : List Char} (h : IsPlain text) :
    ((segments (· == '/') text).map (encode sparedInPath)).countP isDots = 0 := by
  rw [List.countP_eq_zero]
  rintro _ hcoded
  obtain ⟨s, hs, rfl⟩ := List.mem_map.1 hcoded
  -- a segment that holds no group is read as itself
  have hdecode : decode (encode sparedInPath s) = Utf8.encode s := by
    refine (decode_encode_path s).trans ((decode_eq_iff s).2 ?_)
    rintro ⟨a, b, ha, hb, hinfix⟩
    exact h.noGroup ⟨a, b, ha, hb, hinfix.trans (infix_of_mem_segments hs)⟩
  intro hdots
  rcases Bool.or_eq_true_iff.1 hdots with hdouble | hsingle
  · have : s = ['.', '.'] := utf8_injective (hdecode.symm.trans (decode_of_doubleDot hdouble))
    exact h.noDots (this ▸ hs)
  · have : s = ['.'] := utf8_injective (hdecode.symm.trans (decode_of_singleDot hsingle))
    exact h.noDot (this ▸ hs)

/-- **A text that was spelled as a path is read back as itself exactly where it is plain.** -/
theorem decode_ofText_iff (text : List Char) :
    decode ((ofText (· == '/') (text.filter (!isDropped ·))).drop 1) =
      Utf8.encode text ↔ IsPlain text := by
  constructor
  · intro hback
    have hkept := length_utf8_filter (!isDropped ·) text
    have hread := length_decode_le (text.filter (!isDropped ·))
    have hpath := length_decode_ofText (text.filter (!isDropped ·))
    obtain ⟨rest, hrest⟩ := ofText_eq_slash (text.filter (!isDropped ·))
    have hlength : (decode (ofText (· == '/') (text.filter (!isDropped ·)))).length =
        (Utf8.encode text).length + 1 := by
      rw [← hback, hrest, List.drop_succ_cons, List.drop_zero, decode_slash, List.length_cons]
    -- every loss would have to be made up for
    have hall : ∀ c ∈ text, isDropped c = false := by
      have hnone : text.countP (fun c => !!isDropped c) = 0 := by omega
      simpa [List.countP_eq_zero] using hnone
    have hsame : text.filter (!isDropped ·) = text := by
      rw [List.filter_eq_self]
      intro c hc
      simp [hall c hc]
    rw [hsame] at hback hpath hlength hread
    have hdots : ((segments (· == '/') text).map (encode sparedInPath)).countP isDots = 0 := by
      omega
    rw [ofText_eq_encode hdots, List.drop_succ_cons, List.drop_zero, decode_encode_path] at hback
    have hnot := List.countP_eq_zero.1 hdots
    refine ⟨hall, (decode_eq_iff text).1 hback, fun hdot => ?_, fun hdots => ?_⟩
    · exact hnot _ (List.mem_map_of_mem hdot) (by decide)
    · exact hnot _ (List.mem_map_of_mem hdots) (by decide)
  · intro hplain
    have hsame : text.filter (!isDropped ·) = text := by
      rw [List.filter_eq_self]
      intro c hc
      simp [hplain.kept c hc]
    rw [hsame, ofText_eq_encode hplain.noSegment, List.drop_succ_cons, List.drop_zero,
      decode_encode_path]
    exact (decode_eq_iff text).2 hplain.noGroup

end Path

end Stairway.Url
