import Stairway.Proofs.Url.Ipv6
import Stairway.Proofs.Url.Reading

/-!
# Where a port is read

A host holds a colon only inside of square brackets, and a backslash nowhere. So the text of a host
and a port, up to the first backslash, says by its last colon which port is read: `place?_port_iff`.
-/

namespace Stairway.Url

open Percent

/-- A text that ends in a colon and a port. -/
def EndsInPort (port : Nat) (s : List Char) : Prop :=
  ∃ name digits, s = name ++ ':' :: digits ∧ parsePort digits = .ok (some port)

theorem parsePort_digits {s : List Char} {port : Option Nat} (h : parsePort s = .ok port) :
    ∀ c ∈ s, c.isDigit = true := by
  unfold parsePort at h
  split at h
  · next hempty => simp [List.isEmpty_iff.1 hempty]
  · split at h
    · cases h
    · next hdigits =>
      simp only [Bool.not_eq_true', Bool.not_eq_false] at hdigits
      exact List.all_eq_true.1 hdigits

theorem colon_notMem_of_parsePort {s : List Char} {port : Option Nat}
    (h : parsePort s = .ok port) : ':' ∉ s :=
  fun hmem => absurd (parsePort_digits h ':' hmem) (by decide)

/-- The port is the one that stands behind the last colon. -/
theorem endsInPort_append_iff {port : Nat} {front back : List Char} (hback : ':' ∉ back) :
    EndsInPort port (front ++ ':' :: back) ↔ parsePort back = .ok (some port) := by
  constructor
  · rintro ⟨name, digits, heq, hport⟩
    have hlast := afterLast_append front hback
    rw [heq, afterLast_append name (colon_notMem_of_parsePort hport)] at hlast
    rw [← hlast]
    exact hport
  · exact fun hport => ⟨front, back, rfl, hport⟩

/-- A port is written as it is read. -/
theorem parsePort_toDigits {port : Nat} (h : port ≤ 65535) :
    parsePort (Nat.toDigits 10 port) = .ok (some port) := by
  have hdigits : (Nat.toDigits 10 port).all Char.isDigit = true :=
    List.all_eq_true.2 (isDigit_of_mem_toDigits port)
  have hvalue : (Nat.toDigits 10 port).foldl (fun n c => n * 10 + (c.toNat - 48)) 0 = port := by
    have hread := Nat.ofDigitChars_toDigits (n := port) (b := 10) (by decide) (by decide)
    have hzero : '0'.toNat = 48 := by decide
    unfold Nat.ofDigitChars at hread
    simpa only [Nat.mul_comm, hzero] using hread
  have hne : (Nat.toDigits 10 port).isEmpty = false := by simp [Nat.toDigits_ne_nil]
  unfold parsePort
  simp only [hne, hdigits, hvalue, Bool.not_true, Bool.false_eq_true, if_false, if_pos h]

namespace Host

variable {s : List Char} {h : Host}

/-- A host with a colon stands in brackets. -/
theorem getLast?_of_parseOpaque (hparse : parseOpaque s = .ok h) (hcolon : ':' ∈ s) :
    s.getLast? = some ']' := by
  unfold parseOpaque at hparse
  split at hparse
  · unfold bracketed at hparse
    split at hparse
    · cases hparse
    · next hlast => simpa using hlast
  · split at hparse
    · cases hparse
    · next hallowed => exact absurd (List.any_eq_true.2 ⟨':', hcolon, by decide⟩) hallowed

theorem backslash_notMem_of_parseOpaque (hparse : parseOpaque s = .ok h) : '\\' ∉ s := by
  intro hmem
  unfold parseOpaque at hparse
  split at hparse
  · next hhead =>
    unfold bracketed at hparse
    split at hparse
    · cases hparse
    · next hlast =>
      split at hparse
      · next ps hps =>
        obtain ⟨t, rfl⟩ : ∃ t, s = '[' :: t := by
          cases s with
          | nil => cases hhead
          | cons c t => exact ⟨t, by rw [Option.some_inj.1 hhead]⟩
        have ht : '\\' ∈ t := (List.mem_cons.1 hmem).resolve_left (by decide)
        have hne : t ≠ [] := List.ne_nil_of_mem ht
        have hback : t.getLast hne = ']' := by
          rw [ne_eq, Decidable.not_not, List.getLast?_cons_of_ne_nil hne,
            List.getLast?_eq_some_getLast hne] at hlast
          exact Option.some_inj.1 hlast
        rw [← List.dropLast_append_getLast hne, hback] at ht
        obtain hin | hin := List.mem_append.1 ht
        · have hmark := Ipv6.marks_of_parse? hps '\\' hin
          revert hmark
          unfold Ipv6.IsMark
          decide
        · exact absurd (List.mem_singleton.1 hin) (by decide)
      · cases hparse
  · split at hparse
    · cases hparse
    · next hallowed => exact hallowed (List.any_eq_true.2 ⟨'\\', hmem, by decide⟩)

end Host

theorem splitHost_rest (s : List Char) :
    ∀ inside, (splitHost inside s).2 = [] ∨ ∃ rest, (splitHost inside s).2 = ':' :: rest := by
  induction s with
  | nil => exact fun _ => .inl rfl
  | cons c s ih =>
    intro inside
    rw [splitHost]
    split
    · next hcolon =>
      simp only [Bool.and_eq_true, beq_iff_eq] at hcolon
      exact .inr ⟨s, by rw [hcolon.1]⟩
    · exact ih _

/-- **Which port is read of a host and a port.** -/
theorem place?_port_iff {s more : List Char} {host : Host} {port : Option Nat} {p : Nat}
    (h : place? s = .ok (host, port, more)) :
    port = some p ↔ EndsInPort p (splitAtFirst (· == '\\') s).1 := by
  obtain ⟨hostText, rest, hsplit, hhost, -, hport, -⟩ := place?_ok h
  have htext := splitHost_append s false
  have hrest := splitHost_rest s false
  rw [hsplit] at htext hrest
  have hkept : ∀ c ∈ hostText, (!(c == '\\')) = true := by
    intro c hc
    simp only [Bool.not_eq_true', beq_eq_false_iff_ne]
    intro heq
    exact Host.backslash_notMem_of_parseOpaque hhost (heq ▸ hc)
  have hcut : (splitAtFirst (· == '\\') s).1 = hostText ++ (splitAtFirst (· == '\\') rest).1 := by
    rw [← htext]
    exact List.takeWhile_append_of_pos hkept
  rw [hcut]
  obtain hnone | ⟨r, hsome⟩ := hrest
  · subst hnone
    obtain rfl : none = port := Except.ok.inj hport
    refine ⟨nofun, ?_⟩
    rintro ⟨name, digits, heq, hdigits⟩
    simp only [splitAtFirst, List.takeWhile_nil, List.append_nil] at heq
    have hlast := Host.getLast?_of_parseOpaque hhost (heq ▸ by simp)
    have hne : digits ≠ [] := by
      rintro rfl
      cases hdigits
    rw [heq, List.getLast?_append_of_ne_nil _ (by simp), List.getLast?_cons_of_ne_nil hne,
      List.getLast?_eq_some_getLast hne] at hlast
    have hdigit := parsePort_digits hdigits _ (List.getLast_mem hne)
    rw [Option.some_inj.1 hlast] at hdigit
    exact absurd hdigit (by decide)
  · subst hsome
    have hback : (splitAtFirst (· == '\\') (':' :: r)).1 = ':' ::
        (splitAtFirst (· == '\\') r).1 := rfl
    rw [List.drop_succ_cons, List.drop_zero] at hport
    rw [hback, endsInPort_append_iff (colon_notMem_of_parsePort hport), hport]
    exact ⟨congrArg _, Except.ok.inj⟩

end Stairway.Url
