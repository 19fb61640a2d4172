import Stairway.Proofs.Url.Percent
import Stairway.Url.Ipv6

/-!
# The characters of an address

An IPv6 address is read of hexadecimal digits, colons and dots and nothing else (`marks_of_parse?`),
and written with hexadecimal digits and colons (`forall_render`).
-/

namespace Stairway.Url

open Percent

/-- The digits of a number. -/
theorem mem_toDigits {b : Nat} (hb : 1 < b) (n : Nat) : ∀ c ∈ Nat.toDigits b n, ∃ d < b,
    c = Nat.digitChar d := by
  induction n using Nat.strong_induction_on with
  | _ n ih =>
    intro c hc
    rw [Nat.toDigits_eq_if hb] at hc
    split at hc
    · next hlt => exact ⟨n, hlt, List.mem_singleton.1 hc⟩
    · rcases List.mem_append.1 hc with hfront | hlast
      · exact ih (n / b) (Nat.div_lt_self (by omega) hb) c hfront
      · exact ⟨n % b, Nat.mod_lt _ (by omega), List.mem_singleton.1 hlast⟩

theorem isDigit_iff {c : Char} : c.isDigit = true ↔ '0' ≤ c ∧ c ≤ '9' :=
  Bool.and_eq_true_iff.trans (and_congr decide_eq_true_iff decide_eq_true_iff)

theorem isDigit_of_mem_toDigits (n : Nat) : ∀ c ∈ Nat.toDigits 10 n, c.isDigit = true := by
  have hall : ∀ d < 10, (Nat.digitChar d).isDigit = true := by decide
  intro c hc
  obtain ⟨d, hd, rfl⟩ := mem_toDigits (by decide) n c hc
  exact hall d hd

namespace Ipv6

/-! ## Reading -/

/-- What an address is read of. -/
def IsMark (c : Char) : Prop := (hexValue? c).isSome = true ∨ c = ':' ∨ c = '.'

theorem isMark_of_digit {c : Char} (h : c.isDigit = true) : IsMark c := by
  have hall : ∀ n < 58, (Char.ofNat n).isDigit = true →
      (hexValue? (Char.ofNat n)).isSome = true := by decide
  have hsmall : c.toNat < 58 := by
    simp only [Char.isDigit, Bool.and_eq_true, decide_eq_true_eq, UInt32.le_iff_toNat_le] at h
    exact Nat.lt_succ_of_le h.2
  have hc := hall c.toNat hsmall
  rw [Char.ofNat_toNat] at hc
  exact .inl (hc h)

theorem marks_of_piece? {s : List Char} {p : Nat} (h : piece? s = some p) : ∀ c ∈ s, IsMark c := by
  have hfold : ∀ (s : List Char) (n : Nat),
      (s.foldlM (fun n c => (hexValue? c).map (n * 16 + ·)) n).isSome = true →
      ∀ c ∈ s, IsMark c := by
    intro s
    induction s with
    | nil => exact nofun
    | cons d s ih =>
      intro n hsome
      cases hd : hexValue? d with
      | none => simp [hd] at hsome
      | some x =>
        have hrest := ih (n * 16 + x) (by simpa [hd] using hsome)
        intro c hc
        rcases List.mem_cons.1 hc with rfl | hc
        · exact .inl (by rw [hd]; rfl)
        · exact hrest c hc
  unfold piece? at h
  split at h
  · cases h
  · exact hfold s 0 (by rw [h]; rfl)

theorem marks_of_dottedPiece? {s : List Char} {p : Nat} (h : dottedPiece? s = some p) :
    ∀ c ∈ s, IsMark c := by
  unfold dottedPiece? at h
  split at h
  · cases h
  · next hdigits =>
    intro c hc
    refine isMark_of_digit ?_
    simp only [Bool.or_eq_true, Bool.not_eq_true', not_or, Bool.not_eq_false] at hdigits
    exact List.all_eq_true.1 hdigits.2 c hc

theorem cut_eq {sep : Char} {s front back : List Char} (h : cut sep s = (front, some back)) :
    s = front ++ sep :: back := by
  unfold cut at h
  split at h
  · cases h
  · next d rest hrest =>
    obtain ⟨rfl, hback⟩ := Prod.mk.inj h
    obtain rfl := Option.some_inj.1 hback
    obtain rfl : d = sep := by
      have hhead := List.head?_dropWhile_not (fun c => decide (c ≠ sep)) s
      rw [hrest] at hhead
      simpa using hhead
    rw [← hrest, List.takeWhile_append_dropWhile]

/-- Two parts and the mark between them. -/
theorem marks_append {a b : List Char} {m : Char} (ha : ∀ c ∈ a, IsMark c) (hm : IsMark m)
    (hb : ∀ c ∈ b, IsMark c) :
    ∀ c ∈ a ++ m :: b, IsMark c := by
  intro c hc
  rcases List.mem_append.1 hc with hc | hc
  · exact ha c hc
  rcases List.mem_cons.1 hc with rfl | hc
  · exact hm
  · exact hb c hc

theorem marks_of_dotted? {s : List Char} {ps : List Nat} (h : dotted? s = some ps) :
    ∀ c ∈ s, IsMark c := by
  have hdot : IsMark '.' := .inr (.inr rfl)
  unfold dotted? at h
  split at h
  · next a s₁ hcut₁ =>
    split at h
    · next b s₂ hcut₂ =>
      split at h
      · next c d hcut₃ =>
        rw [cut_eq hcut₁, cut_eq hcut₂, cut_eq hcut₃]
        simp only [Option.bind_eq_bind, Option.bind_eq_some_iff] at h
        obtain ⟨a', ha, b', hb, c', hc, d', hd, -⟩ := h
        exact marks_append (marks_of_dottedPiece? ha) hdot <|
          marks_append (marks_of_dottedPiece? hb) hdot <|
          marks_append (marks_of_dottedPiece? hc) hdot (marks_of_dottedPiece? hd)
      · cases h
    · cases h
  · cases h

theorem marks_of_pieces? (segs : List (List Char)) :
    ∀ ps, pieces? segs = some ps → ∀ s ∈ segs, ∀ c ∈ s, IsMark c := by
  induction segs with
  | nil => exact fun _ _ => nofun
  | cons s rest ih =>
    intro ps h t ht
    cases rest with
    | nil =>
      rw [List.mem_singleton.1 ht]
      simp only [pieces?] at h
      split at h
      · cases h
      split at h
      · exact marks_of_dotted? h
      · obtain ⟨p, hp, -⟩ := Option.map_eq_some_iff.1 h
        exact marks_of_piece? hp
    | cons s' rest =>
      simp only [pieces?] at h
      split at h
      · cases h
      simp only [Option.bind_eq_bind, Option.bind_eq_some_iff] at h
      obtain ⟨p, hp, ps', hrest, -⟩ := h
      rcases List.mem_cons.1 ht with rfl | ht
      · exact marks_of_piece? hp
      · exact ih ps' hrest t ht

/-- Nothing but separators is lost between the pieces. -/
theorem mem_splitOn (sep : Char) {c : Char} {s : List Char} (hc : c ∈ s) :
    c = sep ∨ ∃ t ∈ s.splitOn sep, c ∈ t := by
  induction s with
  | nil => cases hc
  | cons d rest ih =>
    obtain ⟨t, more, hrest⟩ := List.exists_cons_of_ne_nil (List.splitOn_ne_nil sep rest)
    rw [List.splitOn_cons_eq_if_modifyHead]
    rw [hrest] at ih ⊢
    split
    · next hd =>
      rcases List.mem_cons.1 hc with rfl | hc
      · exact .inl (beq_iff_eq.1 hd)
      · exact (ih hc).imp_right fun ⟨u, hu, hmem⟩ => ⟨u, List.mem_cons_of_mem _ hu, hmem⟩
    · rcases List.mem_cons.1 hc with rfl | hc
      · exact .inr ⟨c :: t, List.mem_cons_self, List.mem_cons_self⟩
      · refine (ih hc).imp_right fun ⟨u, hu, hmem⟩ => ?_
        rcases List.mem_cons.1 hu with rfl | hu
        · exact ⟨d :: u, List.mem_cons_self, List.mem_cons_of_mem d hmem⟩
        · exact ⟨u, List.mem_cons_of_mem _ hu, hmem⟩

theorem marks_of_splitOn {s : List Char} {ps : List Nat} (h : pieces? (s.splitOn ':') = some ps) :
    ∀ c ∈ s, IsMark c := by
  intro c hc
  obtain rfl | ⟨t, ht, hmem⟩ := mem_splitOn ':' hc
  · exact .inr (.inl rfl)
  · exact marks_of_pieces? _ ps h t ht c hmem

theorem marks_of_side? {s : List Char} {ps : List Nat} (h : side? s = some ps) :
    ∀ c ∈ s, IsMark c := by
  unfold side? at h
  split at h
  · next hempty => simp [List.isEmpty_iff.1 hempty]
  · exact marks_of_splitOn h

theorem cutGap_eq (s : List Char) : ∀ a b, cutGap s = some (a, b) → s = a ++ ':' :: ':' :: b := by
  fun_induction cutGap s with
  | case1 rest =>
    intro a b h
    cases h
    rfl
  | case2 c rest _ ih =>
    intro a b h
    obtain ⟨⟨a', b'⟩, hrest, heq⟩ := Option.map_eq_some_iff.1 h
    cases heq
    rw [ih a' b hrest, List.cons_append]
  | case3 => exact nofun

/-- **An address is read of marks.** -/
theorem marks_of_parse? {s : List Char} {ps : List Nat} (h : parse? s = some ps) :
    ∀ c ∈ s, IsMark c := by
  have hcolon : IsMark ':' := .inr (.inl rfl)
  unfold parse? at h
  split at h
  · simp only [Option.bind_eq_bind, Option.bind_eq_some_iff] at h
    obtain ⟨ps', hpieces, -⟩ := h
    exact marks_of_splitOn hpieces
  · next before after hgap =>
    simp only [Option.bind_eq_bind] at h
    split at h
    · cases h
    simp only [Option.bind_eq_some_iff] at h
    obtain ⟨a, ha, b, hb, -⟩ := h
    rw [cutGap_eq s _ _ hgap]
    exact marks_append (marks_of_side? ha) hcolon
      (marks_append (a := []) (by simp) hcolon (marks_of_side? hb))

/-! ## Writing -/

/-- Whatever holds of colons and digits holds of what is written of an address. -/
theorem forall_render {P : Char → Prop} (hcolon : P ':') (hdigit : ∀ d < 16, P (Nat.digitChar d))
    (ps : List Nat) : ∀ c ∈ render ps, P c := by
  have hcolons : ∀ ps : List Nat, ∀ c ∈ colons ps, P c := by
    intro ps
    induction ps with
    | nil => exact nofun
    | cons p ps ih =>
      intro c hc
      have hpiece : ∀ c ∈ Nat.toDigits 16 p, P c := by
        intro c hc
        obtain ⟨d, hd, rfl⟩ := mem_toDigits (by decide) p c hc
        exact hdigit d hd
      cases ps with
      | nil => exact hpiece c (by simpa [colons] using hc)
      | cons q ps =>
        have hsplit : colons (p :: q :: ps) = Nat.toDigits 16 p ++ ':' :: colons (q :: ps) := by
          simp [colons, List.intercalate_cons_cons]
        rw [hsplit] at hc
        rcases List.mem_append.1 hc with hc | hc
        · exact hpiece c hc
        · rcases List.mem_cons.1 hc with rfl | hc
          · exact hcolon
          · exact ih c hc
  intro c hc
  unfold render at hc
  split at hc
  · exact hcolons ps c hc
  · rcases List.mem_append.1 hc with hc | hc
    · rcases List.mem_append.1 hc with hc | hc
      · exact hcolons _ c hc
      · simp only [List.mem_cons, List.not_mem_nil, or_false, or_self] at hc
        rw [hc]
        exact hcolon
    · exact hcolons _ c hc

end Ipv6

end Stairway.Url
