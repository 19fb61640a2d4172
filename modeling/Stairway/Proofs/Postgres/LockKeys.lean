import Mathlib.Algebra.Group.Nat.Defs
import Stairway.Proofs.Postgres.Address
import Stairway.Proofs.Url.Paths

/-!
# Keys of locks tell addresses apart

A lock's key is a hash of the names of a database and a table with a colon between them. A table's
name holds no colon, for an address with one is refused, so the last colon of the text is the one
that was put there, and the text says both names (`lockText_inj`). Nothing is lost behind the hash:
its first eight bytes are a number of 64 bits (`bigEndian_inj`, `lockKey_eq_iff`).

What the hash does is not looked at. That it does not take two texts to the same eight bytes is a
premise of `lock_keys_separate`, and only about the two texts at hand.
-/

namespace Stairway.Postgres

open Text Digest

/-! ## The number of eight bytes -/

/-- A number with some bytes behind it. -/
def bigEndianFrom (n : Nat) (bytes : List UInt8) : Nat :=
  bytes.foldl (fun n b => n * 256 + b.toNat) n

theorem bigEndianFrom_cons (n : Nat) (b : UInt8) (bytes : List UInt8) :
    bigEndianFrom n (b :: bytes) = bigEndianFrom (n * 256 + b.toNat) bytes := rfl

theorem bigEndianFrom_inj {bytes bytes' : List UInt8} (hlength : bytes.length = bytes'.length) :
    ∀ {n n' : Nat}, bigEndianFrom n bytes = bigEndianFrom n' bytes' → n = n' ∧ bytes = bytes' := by
  induction bytes generalizing bytes' with
  | nil =>
    obtain rfl := List.length_eq_zero_iff.1 hlength.symm
    exact fun h => ⟨h, rfl⟩
  | cons b bytes ih =>
    cases bytes' with
    | nil => cases hlength
    | cons b' bytes' =>
      intro n n' h
      rw [bigEndianFrom_cons, bigEndianFrom_cons] at h
      obtain ⟨hfront, rfl⟩ := ih (Nat.succ.inj hlength) h
      have hb := b.toNat_lt
      have hb' := b'.toNat_lt
      have hsame : b.toNat = b'.toNat := by omega
      exact ⟨by omega, by rw [UInt8.toNat_inj.1 hsame]⟩

/-- Rows of bytes of one length are told apart by their numbers. -/
theorem bigEndian_inj {bytes bytes' : List UInt8} (hlength : bytes.length = bytes'.length)
    (h : bigEndian bytes = bigEndian bytes') : bytes = bytes' := by
  have hfrom : bigEndianFrom 0 bytes = bigEndianFrom 0 bytes' := h
  exact (bigEndianFrom_inj hlength hfrom).2

theorem bigEndianFrom_lt (bytes : List UInt8) :
    ∀ {n m : Nat}, n < m → bigEndianFrom n bytes < m * 256 ^ bytes.length := by
  induction bytes with
  | nil => exact fun h => by simpa [bigEndianFrom] using h
  | cons b bytes ih =>
    intro n m h
    have hb := b.toNat_lt
    rw [bigEndianFrom_cons, List.length_cons, Nat.pow_succ', ← Nat.mul_assoc]
    exact ih (by omega)

theorem bigEndian_lt (bytes : List UInt8) : bigEndian bytes < 256 ^ bytes.length := by
  have hlt := bigEndianFrom_lt bytes Nat.one_pos
  rwa [Nat.one_mul] at hlt

/-- Numbers below the modulus stay apart when half of them get a sign. -/
theorem bmod_inj {m n k : Nat} (hn : n < m) (hk : k < m)
    (h : (Int.ofNat n).bmod m = (Int.ofNat k).bmod m) :
    n = k := by
  have hback : ∀ l : Nat, l < m → (Int.ofNat l).bmod m % (m : Int) = Int.ofNat l := fun l hl => by
    rw [Int.bmod_emod]
    exact Int.emod_eq_of_lt (Int.natCast_nonneg l) (Int.ofNat_lt.2 hl)
  have hsame := hback n hn
  rw [h, hback k hk] at hsame
  exact (Int.ofNat.inj hsame).symm

/-! ## The hash -/

/-- The part of a hash that a lock's key is made of. -/
def shortHash (bytes : List UInt8) : List UInt8 := (Blake3.hash bytes).take 8

theorem length_shortHash (bytes : List UInt8) : (shortHash bytes).length = 8 := by
  have hword : ∀ w : Blake3.Word, (Blake3.bytesOf w).length = 4 := fun w => rfl
  simp [shortHash, Blake3.hash, List.length_flatMap, hword]

/-- What is hashed for an address. -/
def Target.hashed (t : Target) : List UInt8 := Utf8.encode (lockText t.database t.table)

theorem Target.lockKey_eq (t : Target) :
    t.lockKey = toBigint (bigEndian (shortHash t.hashed)) := rfl

/-- **Keys are equal exactly if the first eight bytes of the hashes are.** -/
theorem lockKey_eq_iff {s t : Target} :
    s.lockKey = t.lockKey ↔ shortHash s.hashed = shortHash t.hashed := by
  have hlt : ∀ t : Target, bigEndian (shortHash t.hashed) < 0x10000000000000000 := fun t => by
    have hbound := bigEndian_lt (shortHash t.hashed)
    rw [length_shortHash] at hbound
    exact Nat.lt_of_lt_of_eq hbound (by decide)
  rw [s.lockKey_eq, t.lockKey_eq]
  constructor
  · intro h
    refine bigEndian_inj ?_ (bmod_inj (hlt s) (hlt t) h)
    rw [length_shortHash, length_shortHash]
  · intro h
    rw [h]

/-! ## The text -/

variable {database database' table table' : List Char}

theorem colon_notMem_of_isName (h : Target.IsName table) : ':' ∉ table := by
  obtain ⟨first, rest, rfl, hfirst, hrest, -⟩ := h
  have hletter : ¬ Target.IsLetter ':' := by
    rintro (h | h) <;> exact absurd h (by decide)
  intro hmem
  rcases List.mem_cons.1 hmem with rfl | hmem
  · exact hfirst.elim hletter (by decide)
  · exact (hrest ':' hmem).elim hletter (by decide)

/-- The last colon is the one between the names. -/
theorem lockText_inj (h : ':' ∉ table) (h' : ':' ∉ table')
    (heq : lockText database table = lockText database' table') :
    database = database' ∧ table = table' := by
  have htable : table = table' := by
    have hlast := congrArg (Url.afterLast ':') heq
    rwa [lockText, lockText, Url.afterLast_append database h, Url.afterLast_append database' h']
      at hlast
  rw [htable] at heq
  exact ⟨List.append_cancel_right heq, htable⟩

/-- The table of an address is a name, also where none is given. -/
theorem Target.isName_table {text : String} {t : Target}
    (h : parse text = .ok t) : IsName t.table := by
  obtain ⟨u, -, -, -, hfits, rfl⟩ := parse_eq_ok_iff.1 h
  obtain hdefault | hpair := table_after {} u.pairs
  · have hname : IsName defaultTable := by decide
    rwa [said, hdefault]
  · exact (hfits _ hpair).table rfl

/-- **The keys of locks tell addresses apart.** What is hashed for two accepted addresses is the
same exactly if they have the database and the table in common, whatever stands in the database's
name; and so are the keys, if the hash does not take these two texts to the same first eight bytes.
-/
theorem Target.lock_keys_separate {first second : String} {s t : Target} (hs : parse first = .ok s)
    (ht : parse second = .ok t) :
    (s.hashed = t.hashed ↔ s.database = t.database ∧ s.table = t.table) ∧
    ((shortHash s.hashed = shortHash t.hashed → s.hashed = t.hashed) →
      (s.lockKey = t.lockKey ↔ s.database = t.database ∧ s.table = t.table)) := by
  have hhashed : s.hashed = t.hashed ↔ s.database = t.database ∧ s.table = t.table := by
    constructor
    · intro h
      exact lockText_inj (colon_notMem_of_isName (isName_table hs))
        (colon_notMem_of_isName (isName_table ht))
        (Url.utf8_injective h)
    · rintro ⟨hdatabase, htable⟩
      rw [hashed, hashed, hdatabase, htable]
  refine ⟨hhashed, fun hfree => ?_⟩
  rw [lockKey_eq_iff, ← hhashed]
  exact ⟨hfree, congrArg shortHash⟩

/-- A target whose database has a colon in its name. -/
def colonTarget : Target where
  url := ⟨"postgres".toList, some ⟨[], none, .name ['h'], none⟩, "/a:b".toList, none, none⟩
  database := "a:b".toList
  table := ['c']
  multiStatement := false

/-- The target with the same table and the front of that name. -/
def frontTarget : Target :=
  { colonTarget with
    url := { colonTarget.url with path := "/a".toList }
    database := ['a'] }

theorem Target.lock_keys_separate_colon :
    parse "postgres://h/a:b?x-migrations-table=c" = .ok colonTarget ∧
    parse "postgres://h/a?x-migrations-table=c" = .ok frontTarget ∧
    (shortHash colonTarget.hashed = shortHash frontTarget.hashed →
      colonTarget.hashed = frontTarget.hashed) ∧
    colonTarget.hashed ≠ frontTarget.hashed ∧ colonTarget.lockKey ≠ frontTarget.lockKey := by
  have hcolon : parse "postgres://h/a:b?x-migrations-table=c" = .ok colonTarget := by decide +kernel
  have hfront : parse "postgres://h/a?x-migrations-table=c" = .ok frontTarget := by decide +kernel
  have hfree : shortHash colonTarget.hashed ≠ shortHash frontTarget.hashed := by decide +kernel
  have hnames :
      ¬ (colonTarget.database = frontTarget.database ∧ colonTarget.table = frontTarget.table) := by
        decide
  obtain ⟨hhashed, hkeys⟩ := lock_keys_separate hcolon hfront
  exact ⟨hcolon, hfront, fun h => absurd h hfree, mt hhashed.1 hnames,
    mt (hkeys fun h => absurd h hfree).1 hnames⟩

end Stairway.Postgres
