import Stairway.Proofs.Text.Utf8
import Stairway.Proofs.Url.Percent
import Stairway.Url.Form

/-!
# Query pairs, there and back

What `encodePairs` writes is read back by `decodePairs` as it was (`decodePairs_encodePairs`), also
behind pairs that were there before (`decodePairs_append`): none of the characters that are written
for a key or a value separates pairs, or a key from its value.
-/

namespace Stairway.Url.Form

open Stairway.Text

/-! ## One text -/

/-- What holds of the characters that a form writes. -/
theorem forall_encode {P : Char → Prop} (hspared : ∀ c, isSpared c = true → P c) (hplus : P '+')
    (hpercent : P '%') (s : List Char) : ∀ c ∈ encode s, P c := by
  have hdigit : ∀ n < 16, isSpared (Percent.hexDigit n) = true := by decide
  intro c hc
  obtain ⟨d, -, hd⟩ := List.mem_flatMap.1 hc
  split at hd
  · rw [List.mem_singleton.1 hd]
    exact hplus
  split at hd
  · next hkept =>
    rw [List.mem_singleton.1 hd]
    exact hspared d hkept
  · obtain ⟨b, -, hb⟩ := List.mem_flatMap.1 hd
    have hlt : b.toNat < 256 := b.toNat_lt
    simp only [Percent.encodeByte, List.mem_cons, List.not_mem_nil, or_false] at hb
    obtain rfl | rfl | rfl := hb
    · exact hpercent
    · exact hspared _ (hdigit _ (by omega))
    · exact hspared _ (hdigit _ (by omega))

/-- The blanks that a form writes as `+`. -/
def blanks (s : List Char) : List Char := s.map fun c => if c == '+' then ' ' else c

theorem blanks_append (s t : List Char) : blanks (s ++ t) = blanks s ++ blanks t := List.map_append

theorem blanks_eq_self {s : List Char} (h : ∀ c ∈ s, c ≠ '+') : blanks s = s := by
  refine (List.map_congr_left fun c hc => ?_).trans (List.map_id s)
  simp [h c hc]

theorem blanks_encodeBytes (bytes : List UInt8) :
    blanks (bytes.flatMap Percent.encodeByte) = bytes.flatMap Percent.encodeByte := by
  have hdigit : ∀ n < 16, Percent.hexDigit n ≠ '+' := by decide
  refine blanks_eq_self fun c hc => ?_
  obtain ⟨b, -, hb⟩ := List.mem_flatMap.1 hc
  have hlt : b.toNat < 256 := b.toNat_lt
  simp only [Percent.encodeByte, List.mem_cons, List.not_mem_nil, or_false] at hb
  obtain rfl | rfl | rfl := hb
  · decide
  · exact hdigit _ (by omega)
  · exact hdigit _ (by omega)

/-- A character that does not begin a group is read as itself. -/
theorem percent_decode_char {c : Char} (hc : c ≠ '%') (rest : List Char) :
    Percent.decode (c :: rest) = String.utf8EncodeChar c ++ Percent.decode rest :=
  Percent.decode_cons (Percent.group?_eq_none_iff.2 fun _ _ _ hpercent => absurd hpercent hc)

theorem percent_decode_encode (s : List Char) :
    Percent.decode (blanks (encode s)) = Utf8.encode s := by
  induction s with
  | nil => rfl
  | cons c s ih =>
    have hsplit : encode (c :: s) = (if c == ' ' then ['+'] else if isSpared c then [c]
        else (String.utf8EncodeChar c).flatMap Percent.encodeByte) ++ encode s := rfl
    rw [hsplit, blanks_append, Percent.utf8_cons, ← ih]
    split
    · next hblank =>
      rw [beq_iff_eq.1 hblank]
      exact percent_decode_char (by decide) _
    split
    · next hkept =>
      have hc : c ≠ '%' ∧ c ≠ '+' := by
        constructor
        all_goals
          rintro rfl
          revert hkept
          decide
      rw [blanks_eq_self (by simpa using hc.2)]
      exact percent_decode_char hc.1 _
    · rw [blanks_encodeBytes, Percent.decode_encodeBytes]

theorem decode_encode (s : List Char) : decode (encode s) = s := by
  have hread : decode (encode s) = Utf8.decodeLossy (Percent.decode (blanks (encode s))) := rfl
  rw [hread, percent_decode_encode, Utf8.decodeLossy_encode]

/-! ## One pair -/

theorem takeWhile_eq_self {p : Char → Bool} {s : List Char} (hs : ∀ c ∈ s, p c = true) :
    s.takeWhile p = s := by
  have hall : (s ++ []).takeWhile p = s ++ [].takeWhile p := List.takeWhile_append_of_pos hs
  simpa using hall

theorem takeWhile_append_cons {p : Char → Bool} {s t : List Char} {c : Char}
    (hs : ∀ d ∈ s, p d = true) (hc : p c = false) : (s ++ c :: t).takeWhile p = s ∧
      (s ++ c :: t).dropWhile p = c :: t := by
  constructor
  · rw [List.takeWhile_append_of_pos hs, List.takeWhile_cons_of_neg (by simp [hc]), List.append_nil]
  · rw [List.dropWhile_append_of_pos hs, List.dropWhile_cons_of_neg (by simp [hc])]

theorem decodePair_encodePair (p : List Char × List Char) : decodePair (encodePair p) = p := by
  have hkey : ∀ c ∈ encode p.1, decide (c ≠ '=') = true := by
    refine forall_encode (fun c hspared => ?_) (by decide) (by decide) p.1
    rw [decide_eq_true_eq]
    rintro rfl
    revert hspared
    decide
  obtain ⟨htake, hdrop⟩ := takeWhile_append_cons (t := encode p.2) (c := '=') hkey (by decide)
  rw [decodePair, encodePair, htake, hdrop, List.drop_succ_cons, List.drop_zero, decode_encode,
    decode_encode]

/-- The characters of a pair; none of them separates pairs. -/
theorem forall_encodePair {P : Char → Prop} (hspared : ∀ c, isSpared c = true → P c) (hplus : P '+')
    (hpercent : P '%') (hequals : P '=') (p : List Char × List Char) : ∀ c ∈ encodePair p, P c := by
  intro c hc
  rcases List.mem_append.1 hc with hkey | hrest
  · exact forall_encode hspared hplus hpercent p.1 c hkey
  · rcases List.mem_cons.1 hrest with rfl | hvalue
    · exact hequals
    · exact forall_encode hspared hplus hpercent p.2 c hvalue

theorem encodePair_ne_nil (p : List Char × List Char) : encodePair p ≠ [] := by simp [encodePair]

theorem sep_notMem_encodePair (p : List Char × List Char) : '&' ∉ encodePair p := by
  have hall : ∀ c ∈ encodePair p, c ≠ '&' := by
    refine forall_encodePair (fun c hspared => ?_) (by decide) (by decide) (by decide) p
    rintro rfl
    revert hspared
    decide
  exact fun hmem => hall _ hmem rfl

/-! ## All pairs -/

theorem decodePairs_append (s t : List Char) :
    decodePairs (s ++ '&' :: t) = decodePairs s ++ decodePairs t := by
  rw [decodePairs, List.splitOn_append_cons_self, List.filter_append, List.map_append]
  rfl

theorem decodePairs_encodePair (p : List Char × List Char) : decodePairs (encodePair p) = [p] := by
  rw [decodePairs, List.splitOn_eq_singleton (sep_notMem_encodePair p)]
  simp [encodePair_ne_nil, decodePair_encodePair]

theorem encodePairs_cons_cons (p q : List Char × List Char) (ps : List (List Char × List Char)) :
    encodePairs (p :: q :: ps) = encodePair p ++ '&' :: encodePairs (q :: ps) := by
  simp [encodePairs, List.intercalate_cons_cons]

/-- **Pairs that are written are read back as they were.** -/
theorem decodePairs_encodePairs (ps : List (List Char × List Char)) :
    decodePairs (encodePairs ps) = ps := by
  induction ps with
  | nil => rfl
  | cons p ps ih =>
    cases ps with
    | nil =>
      have hone : encodePairs [p] = encodePair p := by simp [encodePairs]
      rw [hone, decodePairs_encodePair]
    | cons q ps =>
      rw [encodePairs_cons_cons, decodePairs_append, decodePairs_encodePair, ih,
        List.singleton_append]

/-- The characters of all pairs. -/
theorem forall_encodePairs {P : Char → Prop} (hspared : ∀ c, isSpared c = true → P c)
    (hplus : P '+') (hpercent : P '%') (hequals : P '=') (hand : P '&')
    (ps : List (List Char × List Char)) :
    ∀ c ∈ encodePairs ps, P c := by
  induction ps with
  | nil => exact nofun
  | cons p ps ih =>
    have hpair := forall_encodePair hspared hplus hpercent hequals p
    cases ps with
    | nil => simpa [encodePairs] using hpair
    | cons q ps =>
      intro c hc
      rw [encodePairs_cons_cons] at hc
      rcases List.mem_append.1 hc with hc | hc
      · exact hpair c hc
      · rcases List.mem_cons.1 hc with rfl | hc
        · exact hand
        · exact ih c hc

/-- A text of which anything is left between the separators holds a pair. -/
theorem decodePairs_ne_nil {s : List Char} {c : Char} (hc : c ∈ s) (hsep : c ≠ '&') :
    decodePairs s ≠ [] := by
  induction s with
  | nil => simp at hc
  | cons d s ih =>
    by_cases hd : d = '&'
    · have hrest : c ∈ s := (List.mem_cons.1 hc).resolve_left (fun heq => hsep (heq.trans hd))
      rw [hd, show '&' :: s = [] ++ '&' :: s from rfl, decodePairs_append]
      exact List.append_ne_nil_of_right_ne_nil _ (ih hrest)
    · obtain ⟨piece, pieces, hpieces⟩ := List.exists_cons_of_ne_nil (List.splitOn_ne_nil '&' s)
      rw [decodePairs, List.splitOn_cons_eq_if_modifyHead, if_neg (by simpa using hd), hpieces]
      simp

end Stairway.Url.Form
