import Stairway.Text.Utf8

/-!
# UTF-8, there and back

What `encode` writes is read back unit by unit, whatever comes after it (`units_encode`), and no
other bytes are read as that text: each character has one form in bytes (`decode?_eq_some_iff`).
-/

namespace Stairway.Text.Utf8

theorem lead_char {b : Nat} (h : b < 0x80) : lead b = .char (Char.ofNat b) := if_pos h

theorem unitsFrom_none_cons (b : UInt8) (bs : List UInt8) :
    unitsFrom none (b :: bs) =
      match lead b.toNat with
      | .char c => some c :: unitsFrom none bs
      | .begins p => unitsFrom (some p) bs
      | .bad => none :: unitsFrom none bs := rfl

/-- A byte that does not go on with a character is read as if none had begun. -/
theorem unitsFrom_some_cons (p : Pending) (b : UInt8) (bs : List UInt8) :
    unitsFrom (some p) (b :: bs) =
      if p.low ≤ b.toNat && b.toNat ≤ p.high then
        match p.missing with
        | 0 | 1 => some (Char.ofNat (p.bits * 64 + b.toNat % 64)) :: unitsFrom none bs
        | n + 2 => unitsFrom (some ⟨n + 1, p.bits * 64 + b.toNat % 64, 0x80, 0xBF⟩) bs
      else none :: unitsFrom none (b :: bs) := rfl

theorem unitsFrom_within {p : Pending} {b : UInt8} (bs : List UInt8) (hlow : p.low ≤ b.toNat)
    (hhigh : b.toNat ≤ p.high) :
    unitsFrom (some p) (b :: bs) =
      match p.missing with
      | 0 | 1 => some (Char.ofNat (p.bits * 64 + b.toNat % 64)) :: unitsFrom none bs
      | n + 2 => unitsFrom (some ⟨n + 1, p.bits * 64 + b.toNat % 64, 0x80, 0xBF⟩) bs := by
  rw [unitsFrom_some_cons, if_pos]
  rw [decide_eq_true hlow, decide_eq_true hhigh, Bool.and_true]

/-- A byte that goes on with a character and leaves more to come. -/
theorem unitsFrom_more {n bits low high : Nat} {b : UInt8} (bs : List UInt8) (hlow : low ≤ b.toNat)
    (hhigh : b.toNat ≤ high) :
    unitsFrom (some ⟨n + 2, bits, low, high⟩) (b :: bs) =
      unitsFrom (some ⟨n + 1, bits * 64 + b.toNat % 64, 0x80, 0xBF⟩) bs :=
  unitsFrom_within bs hlow hhigh

/-- The byte that ends a character. -/
theorem unitsFrom_last {bits low high : Nat} {b : UInt8} (bs : List UInt8) (hlow : low ≤ b.toNat)
    (hhigh : b.toNat ≤ high) :
    unitsFrom (some ⟨1, bits, low, high⟩) (b :: bs) =
      some (Char.ofNat (bits * 64 + b.toNat % 64)) :: unitsFrom none bs :=
  unitsFrom_within bs hlow hhigh

theorem unitsFrom_begins {b : UInt8} {p : Pending} (bs : List UInt8)
    (h : lead b.toNat = .begins p) :
    unitsFrom none (b :: bs) = unitsFrom (some p) bs := by
  rw [unitsFrom_none_cons, h]

theorem unitsFrom_char {b : UInt8} {c : Char} (bs : List UInt8) (h : lead b.toNat = .char c) :
    unitsFrom none (b :: bs) = some c :: unitsFrom none bs := by
  rw [unitsFrom_none_cons, h]

theorem toNat_ofNat_of_lt {n : Nat} (h : n < 256) : (UInt8.ofNat n).toNat = n := by
  simpa using Nat.mod_eq_of_lt h

/-- The leading bits of a character of two, three and four bytes. -/
theorem lead_two {x : Nat} (hlow : 2 ≤ x) (hhigh : x < 32) :
    lead (x + 192) = .begins ⟨1, x, 0x80, 0xBF⟩ := by
  unfold lead
  rw [if_neg (by omega), if_neg (by omega), if_pos (by omega), Nat.add_sub_cancel]

theorem lead_three {x y : Nat} (hx : x < 16) (hy : y < 64) (hshort : x = 0 → 32 ≤ y)
    (hsurrogate : x = 13 → y < 32) :
    ∃ low high, lead (x + 224) = .begins ⟨2, x, low, high⟩ ∧ low ≤ y + 128 ∧ y + 128 ≤ high := by
  unfold lead
  rw [if_neg (by omega), if_neg (by omega), if_neg (by omega)]
  by_cases hzero : x = 0
  · exact ⟨0xA0, 0xBF, by rw [if_pos (by omega), hzero], by have := hshort hzero; omega, by omega⟩
  by_cases hlast : x = 13
  · exact ⟨0x80, 0x9F, by rw [if_neg (by omega), if_pos (by omega), hlast], by omega, by
      have := hsurrogate hlast; omega⟩
  · refine ⟨0x80, 0xBF, ?_, by omega, by omega⟩
    rw [if_neg (by omega), if_neg (by omega), if_pos (by omega), Nat.add_sub_cancel]

theorem lead_four {x y : Nat} (hx : x < 5) (hy : y < 64) (hshort : x = 0 → 16 ≤ y)
    (hlarge : x = 4 → y < 16) :
    ∃ low high, lead (x + 240) = .begins ⟨3, x, low, high⟩ ∧ low ≤ y + 128 ∧ y + 128 ≤ high := by
  unfold lead
  rw [if_neg (by omega), if_neg (by omega), if_neg (by omega), if_neg (by omega), if_neg (by omega),
    if_neg (by omega)]
  by_cases hzero : x = 0
  · exact ⟨0x90, 0xBF, by rw [if_pos (by omega), hzero], by have := hshort hzero; omega, by omega⟩
  by_cases hlast : x = 4
  · refine ⟨0x80, 0x8F, ?_, by omega, by have := hlarge hlast; omega⟩
    rw [if_neg (by omega), if_neg (by omega), if_pos (by omega), hlast]
  · refine ⟨0x80, 0xBF, ?_, by omega, by omega⟩
    rw [if_neg (by omega), if_pos (by omega), Nat.add_sub_cancel]

theorem toNat_ofNat_of_valid {v : Nat} (h : v < 0xD800 ∨ 0xDFFF < v ∧ v < 0x110000) :
    (Char.ofNat v).toNat = v := by
  have hvalid : v.isValidChar := h
  rw [Char.ofNat, dif_pos hvalid]
  rfl

section EncodeChar

variable {v : Nat}

/-- The bytes of a character, by its number. -/
theorem encodeChar_ofNat (h : v < 0xD800 ∨ 0xDFFF < v ∧ v < 0x110000) :
    String.utf8EncodeChar (Char.ofNat v) =
      if v ≤ 0x7F then [UInt8.ofNat v]
      else if v ≤ 0x7FF then [UInt8.ofNat (v / 64 % 32 + 192), UInt8.ofNat (v % 64 + 128)]
      else if v ≤ 0xFFFF then
        [UInt8.ofNat (v / 4096 % 16 + 224), UInt8.ofNat (v / 64 % 64 + 128),
          UInt8.ofNat (v % 64 + 128)]
      else
        [UInt8.ofNat (v / 262144 % 8 + 240), UInt8.ofNat (v / 4096 % 64 + 128),
          UInt8.ofNat (v / 64 % 64 + 128), UInt8.ofNat (v % 64 + 128)] := by
  have hvalue : (Char.ofNat v).val.toNat = v := toNat_ofNat_of_valid h
  simp only [String.utf8EncodeChar, hvalue]

theorem encodeChar_one (h : v < 0x80) : String.utf8EncodeChar (Char.ofNat v) = [UInt8.ofNat v] := by
  rw [encodeChar_ofNat (by omega), if_pos (by omega)]

theorem encodeChar_two (hlow : 0x80 ≤ v) (hhigh : v < 0x800) :
    String.utf8EncodeChar (Char.ofNat v) =
      [UInt8.ofNat (v / 64 + 192), UInt8.ofNat (v % 64 + 128)] := by
  have hfirst : v / 64 % 32 = v / 64 := Nat.mod_eq_of_lt (by omega)
  rw [encodeChar_ofNat (by omega), if_neg (by omega), if_pos (by omega), hfirst]

theorem encodeChar_three (hlow : 0x800 ≤ v) (hhigh : v < 0x10000)
    (hvalid : v < 0xD800 ∨ 0xDFFF < v) :
    String.utf8EncodeChar (Char.ofNat v) =
      [UInt8.ofNat (v / 4096 + 224), UInt8.ofNat (v / 64 % 64 + 128),
        UInt8.ofNat (v % 64 + 128)] := by
  have hfirst : v / 4096 % 16 = v / 4096 := Nat.mod_eq_of_lt (by omega)
  rw [encodeChar_ofNat (by omega), if_neg (by omega), if_neg (by omega), if_pos (by omega), hfirst]

theorem encodeChar_four (hlow : 0x10000 ≤ v) (hhigh : v < 0x110000) :
    String.utf8EncodeChar (Char.ofNat v) =
      [UInt8.ofNat (v / 262144 + 240), UInt8.ofNat (v / 4096 % 64 + 128),
        UInt8.ofNat (v / 64 % 64 + 128), UInt8.ofNat (v % 64 + 128)] := by
  have hfirst : v / 262144 % 8 = v / 262144 := Nat.mod_eq_of_lt (by omega)
  rw [encodeChar_ofNat (by omega), if_neg (by omega), if_neg (by omega), if_neg (by omega), hfirst]

end EncodeChar

/-- **A character that is written is the first unit that is read.** -/
theorem unitsFrom_encodeChar (c : Char) (bs : List UInt8) :
    unitsFrom none (String.utf8EncodeChar c ++ bs) = some c :: unitsFrom none bs := by
  have hvalid : c.toNat < 0xD800 ∨ 0xDFFF < c.toNat ∧ c.toNat < 0x110000 := c.valid
  have hsame : Char.ofNat c.toNat = c := Char.ofNat_toNat c
  generalize c.toNat = v at hvalid hsame
  subst hsame
  by_cases hone : v < 0x80
  · rw [encodeChar_one hone]
    exact unitsFrom_char bs (by rw [toNat_ofNat_of_lt (by omega), lead_char hone])
  have hlast : (UInt8.ofNat (v % 64 + 128)).toNat = v % 64 + 128 := toNat_ofNat_of_lt (by omega)
  by_cases htwo : v < 0x800
  · rw [encodeChar_two (by omega) htwo, List.cons_append,
      unitsFrom_begins _ (p := ⟨1, v / 64, 0x80, 0xBF⟩)
      (by rw [toNat_ofNat_of_lt (by omega), lead_two (by omega) (by omega)])]
    rw [List.cons_append, unitsFrom_last _ (by omega) (by omega), hlast]
    have hbits : v / 64 * 64 + (v % 64 + 128) % 64 = v := by omega
    rw [hbits]
    rfl
  have hsecond : (UInt8.ofNat (v / 64 % 64 + 128)).toNat = v / 64 % 64 + 128 :=
    toNat_ofNat_of_lt (by omega)
  by_cases hthree : v < 0x10000
  · obtain ⟨low, high, hlead, hlow, hhigh⟩ :=
      lead_three (x := v / 4096) (y := v / 64 % 64) (by omega) (by omega)
      (by omega) (by omega)
    rw [encodeChar_three (by omega) hthree (by omega), List.cons_append,
      unitsFrom_begins _ (by rw [toNat_ofNat_of_lt (by omega), hlead]), List.cons_append,
      unitsFrom_more (n := 0) _ (by omega) (by omega), hsecond, List.cons_append,
      unitsFrom_last _ (by omega) (by omega), hlast]
    have hbits : (v / 4096 * 64 + (v / 64 % 64 + 128) % 64) * 64 + (v % 64 + 128) % 64 = v := by
      omega
    rw [hbits]
    rfl
  · have hfirst : (UInt8.ofNat (v / 4096 % 64 + 128)).toNat = v / 4096 % 64 + 128 :=
      toNat_ofNat_of_lt (by omega)
    obtain ⟨low, high, hlead, hlow, hhigh⟩ :=
      lead_four (x := v / 262144) (y := v / 4096 % 64) (by omega)
      (by omega) (by omega) (by omega)
    rw [encodeChar_four (by omega) (by omega), List.cons_append,
      unitsFrom_begins _ (by rw [toNat_ofNat_of_lt (by omega), hlead]), List.cons_append,
      unitsFrom_more (n := 1) _ (by omega) (by omega), hfirst, List.cons_append,
      unitsFrom_more (n := 0) _ (by omega) (by omega), hsecond, List.cons_append,
      unitsFrom_last _ (by omega) (by omega), hlast]
    have hbits :
        ((v / 262144 * 64 + (v / 4096 % 64 + 128) % 64) * 64 + (v / 64 % 64 + 128) % 64) * 64 +
        (v % 64 + 128) % 64 = v := by omega
    rw [hbits]
    rfl

theorem units_encode (s : List Char) : units (encode s) = s.map some := by
  induction s with
  | nil => rfl
  | cons c s ih =>
    have hfirst : units (encode (c :: s)) = some c :: units (encode s) :=
      unitsFrom_encodeChar c (encode s)
    rw [hfirst, ih, List.map_cons]

/-- **A text that is written is read back as itself.** -/
theorem decodeLossy_encode (s : List Char) : decodeLossy (encode s) = s := by
  simp [decodeLossy, units_encode, Function.comp_def]

/-! ## Only what is written is read -/

/-- A byte that begins a character: how many follow, the bits that it holds, and where the next byte
must lie. This is where characters that are written too long, or are none, are refused. -/
theorem lead_begins {b : Nat} {p : Pending} (h : lead b = .begins p) :
    (∃ x, p = ⟨1, x, 128, 191⟩ ∧ b = x + 192 ∧ 2 ≤ x ∧ x < 32) ∨
    (∃ x low high, p = ⟨2, x, low, high⟩ ∧ b = x + 224 ∧ x < 16 ∧ 128 ≤ low ∧ high ≤ 191 ∧
      (x = 0 → 160 ≤ low) ∧ (x = 13 → high ≤ 159)) ∨
    (∃ x low high, p = ⟨3, x, low, high⟩ ∧ b = x + 240 ∧ x < 5 ∧ 128 ≤ low ∧ high ≤ 191 ∧
      (x = 0 → 144 ≤ low) ∧ (x = 4 → high ≤ 143)) := by
  revert h
  unfold lead
  -- one branch after the other: `split` would look through all that are left each time
  refine iteInduction (motive := (· = Lead.begins p → _)) (fun _ => nofun) fun _ => ?_
  refine iteInduction (motive := (· = Lead.begins p → _)) (fun _ => nofun) fun _ => ?_
  refine iteInduction (motive := (· = Lead.begins p → _)) ?two fun _ => ?_
  case two =>
    rintro _ ⟨⟩
    exact .inl ⟨_, rfl, by omega, by omega, by omega⟩
  -- what is left begins a character of three or four bytes
  refine fun h => .inr ?_
  revert h
  repeat
    refine iteInduction (motive := (· = Lead.begins p → _)) ?_ fun _ => ?_
    · rintro _ ⟨⟩
      first
        | exact .inl ⟨_, _, _, rfl, by omega, by omega, by omega, by omega, by omega, by omega⟩
        | exact .inr ⟨_, _, _, rfl, by omega, by omega, by omega, by omega, by omega, by omega⟩
  exact nofun

/-- Only a byte below 0x80 is a character by itself. -/
theorem lt_of_lead {b : Nat} {c : Char} : lead b = .char c → b < 0x80 := by
  unfold lead
  refine iteInduction (motive := (· = Lead.char c → _)) (fun h _ => h) fun _ => ?_
  repeat refine iteInduction (motive := (· = Lead.char c → _)) (fun _ => nofun) fun _ => ?_
  exact nofun

section Continuing

variable {x low high : Nat} {bs : List UInt8} {c : Char} {us : List (Option Char)}

/-- What goes on with a character that is read in the end. -/
theorem exists_of_unitsFrom {p : Pending} (h : unitsFrom (some p) bs = some c :: us) :
    ∃ b rest, bs = b :: rest ∧ p.low ≤ b.toNat ∧ b.toNat ≤ p.high := by
  cases bs with
  | nil => cases h
  | cons b rest =>
    by_cases hb : p.low ≤ b.toNat ∧ b.toNat ≤ p.high
    · exact ⟨b, rest, rfl, hb⟩
    · rw [unitsFrom_some_cons, if_neg (by simpa using hb)] at h
      cases h

theorem last_of_unitsFrom (h : unitsFrom (some ⟨1, x, low, high⟩) bs = some c :: us) :
    ∃ b rest, bs = b :: rest ∧ low ≤ b.toNat ∧ b.toNat ≤ high ∧
      c = Char.ofNat (x * 64 + b.toNat % 64) ∧ unitsFrom none rest = us := by
  obtain ⟨b, rest, rfl, hlow, hhigh⟩ := exists_of_unitsFrom h
  rw [unitsFrom_last rest hlow hhigh] at h
  obtain ⟨hc, hus⟩ := List.cons.inj h
  exact ⟨b, rest, rfl, hlow, hhigh, (Option.some_inj.1 hc).symm, hus⟩

theorem more_of_unitsFrom {n : Nat} (h : unitsFrom (some ⟨n + 2, x, low, high⟩) bs = some c :: us) :
    ∃ b rest, bs = b :: rest ∧ low ≤ b.toNat ∧ b.toNat ≤ high ∧
      unitsFrom (some ⟨n + 1, x * 64 + b.toNat % 64, 0x80, 0xBF⟩) rest = some c :: us := by
  obtain ⟨b, rest, rfl, hlow, hhigh⟩ := exists_of_unitsFrom h
  rw [unitsFrom_more rest hlow hhigh] at h
  exact ⟨b, rest, rfl, hlow, hhigh, h⟩

end Continuing

/-- Bytes that are told by what they count. -/
theorem ofNat_of_toNat {n : Nat} {b : UInt8} (h : n = b.toNat) :
    UInt8.ofNat n = b := by rw [h, UInt8.ofNat_toNat]

/-- **A first unit that is a character was written as that character.** -/
theorem encodeChar_of_unitsFrom {bs : List UInt8} {c : Char} {us : List (Option Char)}
    (h : unitsFrom none bs = some c :: us) :
    ∃ rest, bs = String.utf8EncodeChar c ++ rest ∧ unitsFrom none rest = us := by
  cases bs with
  | nil => cases h
  | cons b bs =>
    cases hlead : lead b.toNat with
    | char d =>
      rw [unitsFrom_char bs hlead] at h
      obtain ⟨hd, rfl⟩ := List.cons.inj h
      obtain rfl := Option.some_inj.1 hd
      have hlt : b.toNat < 0x80 := lt_of_lead hlead
      rw [lead_char hlt] at hlead
      cases hlead
      refine ⟨bs, ?_, rfl⟩
      rw [encodeChar_one hlt, UInt8.ofNat_toNat, List.singleton_append]
    | bad =>
      rw [unitsFrom_none_cons, hlead] at h
      cases h
    | begins p =>
      rw [unitsFrom_begins bs hlead] at h
      obtain ⟨x, rfl, hb, hx⟩ | ⟨x, low, high, rfl, hb, hx⟩ | ⟨x, low, high, rfl, hb, hx⟩ :=
        lead_begins hlead
      · obtain ⟨b₁, rest, rfl, hlow, hhigh, rfl, hus⟩ := last_of_unitsFrom h
        refine ⟨rest, ?_, hus⟩
        rw [encodeChar_two (by omega) (by omega), ofNat_of_toNat (b := b) (by omega),
          ofNat_of_toNat (b := b₁) (by omega)]
        rfl
      · obtain ⟨b₁, bs₁, rfl, hlow, hhigh, h⟩ := more_of_unitsFrom h
        obtain ⟨b₂, rest, rfl, hlow', hhigh', rfl, hus⟩ := last_of_unitsFrom h
        refine ⟨rest, ?_, hus⟩
        rw [encodeChar_three (by omega) (by omega) (by omega), ofNat_of_toNat (b := b) (by omega),
          ofNat_of_toNat (b := b₁) (by omega), ofNat_of_toNat (b := b₂) (by omega)]
        rfl
      · obtain ⟨b₁, bs₁, rfl, hlow, hhigh, h⟩ := more_of_unitsFrom h
        obtain ⟨b₂, bs₂, rfl, hlow', hhigh', h⟩ := more_of_unitsFrom h
        obtain ⟨b₃, rest, rfl, hlow'', hhigh'', rfl, hus⟩ := last_of_unitsFrom h
        refine ⟨rest, ?_, hus⟩
        rw [encodeChar_four (by omega) (by omega), ofNat_of_toNat (b := b) (by omega),
          ofNat_of_toNat (b := b₁) (by omega), ofNat_of_toNat (b := b₂) (by omega),
            ofNat_of_toNat (b := b₃) (by omega)]
        rfl

/-- A character that has begun is read in some way, whatever follows. -/
theorem unitsFrom_ne_nil (p : Pending) (bs : List UInt8) : unitsFrom (some p) bs ≠ [] := by
  induction bs generalizing p with
  | nil => nofun
  | cons b bs ih =>
    rw [unitsFrom_some_cons]
    split
    · split
      · simp
      · simp
      · exact ih _
    · simp

theorem eq_nil_of_units {bs : List UInt8} (h : units bs = []) : bs = [] := by
  cases bs with
  | nil => rfl
  | cons b bs =>
    rw [units, unitsFrom_none_cons] at h
    split at h
    · cases h
    · exact absurd h (unitsFrom_ne_nil _ bs)
    · cases h

theorem encode_of_units {s : List Char} {bs : List UInt8}
    (h : units bs = s.map some) : bs = encode s := by
  induction s generalizing bs with
  | nil => exact eq_nil_of_units h
  | cons c s ih =>
    obtain ⟨rest, rfl, hrest⟩ := encodeChar_of_unitsFrom h
    rw [ih hrest]
    rfl

theorem mapM_id_eq_some_iff {us : List (Option Char)} {s : List Char} :
    us.mapM id = some s ↔ us = s.map some := by
  induction us generalizing s with
  | nil => cases s <;> simp
  | cons u us ih =>
    cases u with
    | none =>
      have hnone : (none :: us).mapM id = none := rfl
      cases s <;> simp [hnone]
    | some d =>
      have hcons : (some d :: us).mapM id = (us.mapM id).map (d :: ·) := by
        rw [List.mapM_cons]
        cases us.mapM id <;> rfl
      rw [hcons, Option.map_eq_some_iff]
      constructor
      · rintro ⟨s, hs, rfl⟩
        rw [ih.1 hs, List.map_cons]
      · intro heq
        cases s with
        | nil => cases heq
        | cons c s =>
          obtain ⟨hd, hus⟩ := List.cons.inj heq
          exact ⟨s, ih.2 hus, by rw [Option.some_inj.1 hd]⟩

/-- **Bytes are a text exactly if they are that text written.** -/
theorem decode?_eq_some_iff {bs : List UInt8} {s : List Char} :
    decode? bs = some s ↔ bs = encode s := by
  rw [decode?, mapM_id_eq_some_iff]
  constructor
  · exact encode_of_units
  · rintro rfl
    exact units_encode s

end Stairway.Text.Utf8
