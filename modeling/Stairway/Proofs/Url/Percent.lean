import Mathlib.Data.List.Infix
import Stairway.Url.Percent

/-!
# Percent coding, there and back

What `encode` writes is read back by `decode` exactly as `decode` would have read the text itself
(`decode_encode`): every byte that is coded comes back, but `%` is spared by every set, and so is a
group that a text happens to hold. So a text comes back where it holds no such group, and only there
(`decode_eq_iff`): a group is three characters and stands for one byte.
-/

namespace Stairway.Url.Percent

open Stairway.Text

/-! ## Reading one group -/

/-- The group at the front of a text: the byte it stands for, and the rest. -/
def group? : List Char → Option (UInt8 × List Char)
  | '%' :: a :: b :: rest =>
    match hexValue? a, hexValue? b with
    | some x, some y => some (UInt8.ofNat (16 * x + y), rest)
    | _, _ => none
  | _ => none

theorem group?_eq_some_iff {s rest : List Char} {byte : UInt8} :
    group? s = some (byte, rest) ↔ ∃ a b x y, s = '%' :: a :: b :: rest ∧ hexValue? a = some x ∧
      hexValue? b = some y ∧ byte = UInt8.ofNat (16 * x + y) := by
  constructor
  · intro h
    unfold group? at h
    split at h
    · next a b rest' =>
      split at h
      · next x y ha hb =>
        simp only [Option.some.injEq, Prod.mk.injEq] at h
        obtain ⟨rfl, rfl⟩ := h
        exact ⟨a, b, x, y, rfl, ha, hb, rfl⟩
      · exact absurd h (by simp)
    · exact absurd h (by simp)
  · rintro ⟨a, b, x, y, rfl, ha, hb, rfl⟩
    simp [group?, ha, hb]

theorem group?_eq_none_iff {c : Char} {rest : List Char} :
    group? (c :: rest) = none ↔
      ∀ a b more, c = '%' → rest = a :: b :: more → hexValue? a = none ∨ hexValue? b = none := by
  constructor
  · rintro h a b more rfl rfl
    cases ha : hexValue? a with
    | none => exact Or.inl rfl
    | some x =>
      cases hb : hexValue? b with
      | none => exact Or.inr rfl
      | some y => simp [group?, ha, hb] at h
  · intro h
    by_contra hne
    obtain ⟨⟨byte, more⟩, hsome⟩ := Option.ne_none_iff_exists'.1 hne
    obtain ⟨a, b, x, y, heq, ha, hb, -⟩ := group?_eq_some_iff.1 hsome
    obtain ⟨rfl, rfl⟩ := List.cons.inj heq
    rcases h a b more rfl rfl with hnone | hnone
    · exact absurd (ha.symm.trans hnone) (by simp)
    · exact absurd (hb.symm.trans hnone) (by simp)

theorem decode_of_group {s rest : List Char} {byte : UInt8} (h : group? s = some (byte, rest)) :
    decode s = byte :: decode rest := by
  obtain ⟨a, b, x, y, rfl, ha, hb, rfl⟩ := group?_eq_some_iff.1 h
  rw [decode]
  simp only [ha, hb]

theorem decode_cons {c : Char} {rest : List Char} (h : group? (c :: rest) = none) :
    decode (c :: rest) = String.utf8EncodeChar c ++ decode rest := by
  rw [decode.eq_def]
  split
  · next a b rest' heq =>
    obtain ⟨rfl, rfl⟩ : c = '%' ∧ rest = a :: b :: rest' := by simpa using heq
    split
    · next x y ha hb => simp [group?, ha, hb] at h
    · rfl
  · next c' rest' _ heq =>
    obtain ⟨rfl, rfl⟩ : c = c' ∧ rest = rest' := by simpa using heq
    rfl
  · next heq => simp at heq

/-- Recursion over a text, a group or a character at a time. -/
theorem groups {motive : List Char → Prop} (nil : motive [])
    (group : ∀ s byte rest, group? s = some (byte, rest) → motive rest → motive s)
    (char : ∀ c rest, group? (c :: rest) = none → motive rest → motive (c :: rest))
    (s : List Char) :
    motive s := by
  induction hlength : s.length using Nat.strong_induction_on generalizing s with
  | _ n ih =>
  subst hlength
  cases hgroup : group? s with
  | some found =>
    obtain ⟨byte, rest⟩ := found
    obtain ⟨a, b, -, -, rfl, -, -, -⟩ := group?_eq_some_iff.1 hgroup
    exact group _ byte rest hgroup (ih _ (by simp only [List.length_cons]; omega) rest rfl)
  | none =>
    cases s with
    | nil => exact nil
    | cons c rest => exact char c rest hgroup (ih _ (by simp) rest rfl)

/-! ## What is coded comes back -/

theorem hexValue?_hexDigit {n : Nat} (hn : n < 16) : hexValue? (hexDigit n) = some n := by
  revert n
  decide

theorem decode_encodeByte (b : UInt8) (rest : List Char) :
    decode (encodeByte b ++ rest) = b :: decode rest := by
  have hb : b.toNat < 256 := b.toNat_lt
  refine decode_of_group (group?_eq_some_iff.2 ⟨_, _, b.toNat / 16, b.toNat % 16, rfl,
    hexValue?_hexDigit (by omega), hexValue?_hexDigit (by omega), ?_⟩)
  rw [Nat.div_add_mod, UInt8.ofNat_toNat]

theorem decode_encodeBytes (bytes : List UInt8) (rest : List Char) :
    decode (bytes.flatMap encodeByte ++ rest) = bytes ++ decode rest := by
  induction bytes with
  | nil => rfl
  | cons b bytes ih =>
    rw [List.flatMap_cons, List.append_assoc, decode_encodeByte, ih, List.cons_append]

theorem encode_cons (keep : Char → Bool) (c : Char) (rest : List Char) :
    encode keep (c :: rest) =
      (if keep c then [c] else (String.utf8EncodeChar c).flatMap encodeByte) ++
        encode keep rest := rfl

/-- What is coded begins a group's first character, never one of its digits. -/
theorem encode_head {keep : Char → Bool} {c : Char} (hc : keep c = false) (rest : List Char) :
    ∃ more, encode keep (c :: rest) = '%' :: more := by
  rw [encode_cons, if_neg (by simp [hc])]
  cases hbytes : String.utf8EncodeChar c with
  | nil => exact absurd hbytes String.utf8EncodeChar_ne_nil
  | cons b bytes => exact ⟨_, rfl⟩

variable {keep : Char → Bool}

/-- A digit that is written is a digit of the text. -/
theorem digit_of_encode {s more : List Char} {x : Char} (h : encode keep s = x :: more)
    (hx : (hexValue? x).isSome = true) : ∃ rest, s = x :: rest ∧ more = encode keep rest := by
  cases s with
  | nil => exact absurd h (by simp [encode])
  | cons c rest =>
    cases hc : keep c with
    | true =>
      rw [encode_cons, if_pos hc, List.singleton_append, List.cons.injEq] at h
      exact ⟨rest, by rw [h.1], h.2.symm⟩
    | false =>
      obtain ⟨more', hmore⟩ := encode_head hc rest
      rw [hmore, List.cons.injEq] at h
      rw [← h.1] at hx
      exact absurd hx (by decide)

/-- No group comes up where a character is written that began none. -/
theorem group?_encode {c : Char} {rest : List Char} (h : group? (c :: rest) = none) :
    group? (c :: encode keep rest) = none := by
  refine group?_eq_none_iff.2 fun a b more hc heq => ?_
  by_contra hboth
  obtain ⟨ha, hb⟩ : (hexValue? a).isSome = true ∧ (hexValue? b).isSome = true := by
    simpa [not_or, Option.isSome_iff_ne_none] using hboth
  obtain ⟨rest, rfl, hrest⟩ := digit_of_encode heq ha
  obtain ⟨rest, rfl, -⟩ := digit_of_encode hrest.symm hb
  exact hboth (group?_eq_none_iff.1 h a b rest hc rfl)

/-- **Coding a text changes nothing about how it is read**, if the set spares what makes a group. -/
theorem decode_encode (hpercent : keep '%' = true)
    (hdigit : ∀ c, (hexValue? c).isSome = true → keep c = true) (s : List Char) :
    decode (encode keep s) = decode s := by
  induction s using groups with
  | nil => rfl
  | group s byte rest hgroup ih =>
    obtain ⟨a, b, x, y, rfl, ha, hb, rfl⟩ := group?_eq_some_iff.1 hgroup
    have hkept : encode keep ('%' :: a :: b :: rest) = '%' :: a :: b :: encode keep rest := by
      simp [encode_cons, hpercent, hdigit a (by rw [ha]; rfl), hdigit b (by rw [hb]; rfl)]
    rw [hkept, decode_of_group (group?_eq_some_iff.2 ⟨a, b, x, y, rfl, ha, hb, rfl⟩),
      decode_of_group hgroup, ih]
  | char c rest hgroup ih =>
    rw [encode_cons, decode_cons hgroup]
    split
    · rw [List.singleton_append, decode_cons (group?_encode hgroup), ih]
    · rw [decode_encodeBytes, ih]

/-- Whatever holds of the first characters of the code holds of every digit. -/
theorem of_digit {P : Char → Prop} [DecidablePred P]
    (h : ∀ n < 103, (hexValue? (Char.ofNat n)).isSome = true → P (Char.ofNat n)) (c : Char)
    (hc : (hexValue? c).isSome = true) : P c := by
  have hsmall : c.toNat < 103 := by
    by_contra hlarge
    have hbeyond : ∀ d : Char, d.toNat < 103 → ¬ c ≤ d := fun d hd hle =>
      absurd (UInt32.le_iff_toNat_le.1 (Char.le_def.1 hle)) (by change ¬ c.toNat ≤ d.toNat; omega)
    simp [hexValue?, hbeyond '9' (by decide), hbeyond 'F' (by decide),
      hbeyond 'f' (by decide)] at hc
  rw [← Char.ofNat_toNat c] at hc ⊢
  exact h _ hsmall hc

theorem sparedInPath_digit : ∀ c, (hexValue? c).isSome = true → sparedInPath c = true :=
  of_digit (by decide)

theorem sparedInUserinfo_digit : ∀ c, (hexValue? c).isSome = true → sparedInUserinfo c = true :=
  of_digit (by decide)

/-! ## Which texts come back -/

/-- Whether a text holds a group. -/
def HoldsGroup (s : List Char) : Prop :=
  ∃ a b, (hexValue? a).isSome = true ∧ (hexValue? b).isSome = true ∧ ['%', a, b] <:+: s

theorem length_utf8EncodeChar_pos (c : Char) : 0 < (String.utf8EncodeChar c).length := by
  rw [String.length_utf8EncodeChar]
  exact c.utf8Size_pos

theorem utf8_cons (c : Char) (s : List Char) :
    Utf8.encode (c :: s) = String.utf8EncodeChar c ++ Utf8.encode s :=
  rfl

theorem length_decode_le (s : List Char) : (decode s).length ≤ (Utf8.encode s).length := by
  induction s using groups with
  | nil => exact Nat.le_refl _
  | group s byte rest hgroup ih =>
    obtain ⟨a, b, x, y, rfl, -, -, -⟩ := group?_eq_some_iff.1 hgroup
    have hfirst := length_utf8EncodeChar_pos '%'
    rw [decode_of_group hgroup, utf8_cons, utf8_cons, utf8_cons]
    simp only [List.length_cons, List.length_append]
    omega
  | char c rest hgroup ih =>
    rw [decode_cons hgroup, utf8_cons, List.length_append, List.length_append]
    omega

/-- **A text is read back as itself where it holds no group.** -/
theorem decode_eq_iff (s : List Char) : decode s = Utf8.encode s ↔ ¬ HoldsGroup s := by
  induction s using groups with
  | nil => exact ⟨fun _ ⟨a, b, _, _, h⟩ => by simp at h, fun _ => rfl⟩
  | group s byte rest hgroup _ =>
    obtain ⟨a, b, x, y, rfl, ha, hb, rfl⟩ := group?_eq_some_iff.1 hgroup
    have hholds : HoldsGroup ('%' :: a :: b :: rest) :=
      ⟨a, b, by rw [ha]; rfl, by rw [hb]; rfl, [], rest, rfl⟩
    -- the group is three characters for one byte
    have hshort : (decode ('%' :: a :: b :: rest)).length <
        (Utf8.encode ('%' :: a :: b :: rest)).length := by
      have hrest := length_decode_le rest
      have hfirst := length_utf8EncodeChar_pos '%'
      have hsecond := length_utf8EncodeChar_pos a
      rw [decode_of_group hgroup, utf8_cons, utf8_cons, utf8_cons]
      simp only [List.length_cons, List.length_append]
      omega
    refine iff_of_false (fun heq => ?_) (not_not_intro hholds)
    exact absurd (congrArg List.length heq) (Nat.ne_of_lt hshort)
  | char c rest hgroup ih =>
    rw [decode_cons hgroup, utf8_cons, List.append_cancel_left_eq, ih, not_iff_not]
    constructor
    · rintro ⟨a, b, ha, hb, hinfix⟩
      exact ⟨a, b, ha, hb, hinfix.trans (List.suffix_cons c rest).isInfix⟩
    · rintro ⟨a, b, ha, hb, hinfix⟩
      refine ⟨a, b, ha, hb, ?_⟩
      rcases List.infix_cons_iff.1 hinfix with ⟨back, hfront⟩ | hrest
      · obtain ⟨x, hx⟩ := Option.isSome_iff_exists.1 ha
        obtain ⟨y, hy⟩ := Option.isSome_iff_exists.1 hb
        rw [group?_eq_some_iff.2 ⟨a, b, x, y, hfront.symm, hx, hy, rfl⟩] at hgroup
        exact absurd hgroup (by simp)
      · exact hrest

end Stairway.Url.Percent
