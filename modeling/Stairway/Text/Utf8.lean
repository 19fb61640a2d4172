/-!
# UTF-8

`encode` writes characters as bytes. `units` reads bytes back: each unit is a character, or `none`
for the longest run of bytes that begins a character and cannot go on as one (a lone byte at least),
so that `decodeLossy` has one replacement character for each such run and `decode?` refuses them
all.
-/

namespace Stairway.Text.Utf8

def encode (s : List Char) : List UInt8 := s.flatMap String.utf8EncodeChar

/-- A character that has begun: how many bytes are missing, its leading bits, and the range of the
next byte. -/
structure Pending where
  missing : Nat
  bits : Nat
  low : Nat
  high : Nat

/-- What a first byte says: a character, the beginning of one, or nothing. -/
inductive Lead where
  | char (c : Char)
  | begins (p : Pending)
  | bad

def lead (b : Nat) : Lead :=
  if b < 0x80 then .char (Char.ofNat b)
  else if b < 0xC2 then .bad
  else if b < 0xE0 then .begins ⟨1, b - 0xC0, 0x80, 0xBF⟩
  else if b = 0xE0 then .begins ⟨2, 0, 0xA0, 0xBF⟩
  else if b = 0xED then .begins ⟨2, 0xD, 0x80, 0x9F⟩
  else if b < 0xF0 then .begins ⟨2, b - 0xE0, 0x80, 0xBF⟩
  else if b = 0xF0 then .begins ⟨3, 0, 0x90, 0xBF⟩
  else if b < 0xF4 then .begins ⟨3, b - 0xF0, 0x80, 0xBF⟩
  else if b = 0xF4 then .begins ⟨3, 4, 0x80, 0x8F⟩
  else .bad

/-- Reads bytes, the first of them as part of the pending character if there is one. -/
def unitsFrom : Option Pending → List UInt8 → List (Option Char)
  | none, [] => []
  | some _, [] => [none]
  | pending, b :: bs =>
    let start : List (Option Char) :=
      match lead b.toNat with
      | .char c => some c :: unitsFrom none bs
      | .begins p => unitsFrom (some p) bs
      | .bad => none :: unitsFrom none bs
    match pending with
    | none => start
    | some p =>
      if p.low ≤ b.toNat && b.toNat ≤ p.high then
        let bits := p.bits * 64 + b.toNat % 64
        match p.missing with
        | 0 | 1 => some (Char.ofNat bits) :: unitsFrom none bs
        | n + 2 => unitsFrom (some ⟨n + 1, bits, 0x80, 0xBF⟩) bs
      else none :: start

def units (bs : List UInt8) : List (Option Char) := unitsFrom none bs

/-- The text that the bytes spell, if they are UTF-8 throughout. -/
def decode? (bs : List UInt8) : Option (List Char) := (units bs).mapM id

/-- The text that the bytes spell, with U+FFFD for what is not UTF-8. -/
def decodeLossy (bs : List UInt8) : List Char := (units bs).map (·.getD '\ufffd')

/-- How many bytes at the front of `bs` go on with the pending character. -/
def continuing : Pending → List UInt8 → Nat
  | _, [] => 0
  | p, b :: bs =>
    if p.low ≤ b.toNat && b.toNat ≤ p.high then
      1 + match p.missing with
        | 0 | 1 => 0
        | n + 2 => continuing ⟨n + 1, 0, 0x80, 0xBF⟩ bs
    else 0

/-- The first place where bytes are not UTF-8: how many bytes before it are, and how many are at
fault there; `none` if the bytes end in the middle of a character. -/
def fault? (bs : List UInt8) : Option (Nat × Option Nat) :=
  if (units bs).all Option.isSome then none
  else
    let good := (encode (((units bs).takeWhile Option.isSome).map (·.getD '\x00'))).length
    match bs.drop good with
    | [] => none
    | b :: rest =>
      match lead b.toNat with
      | .begins p =>
        let n := continuing p rest
        some (good, if n < rest.length then some (n + 1) else none)
      | _ => some (good, some 1)

/-- What is said of bytes that are no text. -/
def faultMessage : Nat × Option Nat → String
  | (good, some n) =>
    "invalid utf-8 sequence of " ++ toString n ++ " bytes from index " ++ toString good
  | (good, none) => "incomplete utf-8 byte sequence from index " ++ toString good

end Stairway.Text.Utf8
