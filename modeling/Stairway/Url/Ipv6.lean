import Stairway.Url.Percent

/-!
# IPv6 addresses

Eight 16-bit pieces in hexadecimal between colons; one `::` stands for as many zero pieces as are
missing, and the last two pieces may be written as a dotted IPv4 address. `render` writes the
shortest form: small letters, no leading zeros, and `::` for the first longest run of at least two
zero pieces.
-/

namespace Stairway.Url.Ipv6

/-- The value of a decimal piece of a dotted address: no leading zero, at most 255. -/
def dottedPiece? (s : List Char) : Option Nat :=
  if s.isEmpty || !s.all Char.isDigit then none
  else if s.length > 1 && s.head? == some '0' then none
  else
    let v := s.foldl (fun n c => n * 10 + (c.toNat - 48)) 0
    if v ≤ 255 then some v else none

/-- The text before the first `sep`, and what follows it if there is one. -/
def cut (sep : Char) (s : List Char) : List Char × Option (List Char) :=
  match s.dropWhile (· ≠ sep) with
  | [] => (s, none)
  | _ :: rest => (s.takeWhile (· ≠ sep), some rest)

/-- A dotted address as two pieces. -/
def dotted? (s : List Char) : Option (List Nat) := do
  let (a, some s) := cut '.' s | none
  let (b, some s) := cut '.' s | none
  let (c, some d) := cut '.' s | none
  let a ← dottedPiece? a
  let b ← dottedPiece? b
  let c ← dottedPiece? c
  let d ← dottedPiece? d
  some [a * 256 + b, c * 256 + d]

/-- A piece of at most four hexadecimal digits. -/
def piece? (s : List Char) : Option Nat :=
  if s.length > 4 then none
  else s.foldlM (fun n c => (Percent.hexValue? c).map (n * 16 + ·)) 0

/-- The pieces between single colons; only the last may be dotted. -/
def pieces? : List (List Char) → Option (List Nat)
  | [] => some []
  | [s] => if s.isEmpty then none else if s.contains '.' then dotted? s else (piece? s).map ([·])
  | s :: rest => do
    if s.isEmpty then none
    let p ← piece? s
    let ps ← pieces? rest
    some (p :: ps)

/-- Pieces of one side of `::`, which may be empty. -/
def side? (s : List Char) : Option (List Nat) :=
  if s.isEmpty then some [] else pieces? (s.splitOn ':')

/-- The text before and after the first `::`. -/
def cutGap : List Char → Option (List Char × List Char)
  | ':' :: ':' :: rest => some ([], rest)
  | c :: rest => (cutGap rest).map fun (a, b) => (c :: a, b)
  | [] => none

/-- The eight pieces of an address. -/
def parse? (s : List Char) : Option (List Nat) :=
  match cutGap s with
  | none => do
    let ps ← pieces? (s.splitOn ':')
    if ps.length = 8 then some ps else none
  | some (before, after) => do
    if before.contains '.' then none
    let a ← side? before
    let b ← side? after
    if a.length + b.length < 8 then
      some (a ++ List.replicate (8 - a.length - b.length) 0 ++ b)
    else none

/-- The runs of zero pieces: start and length, in order. -/
def zeroRuns : Nat → List Nat → List (Nat × Nat)
  | _, [] => []
  | i, p :: ps =>
    if p ≠ 0 then zeroRuns (i + 1) ps
    else
      match zeroRuns (i + 1) ps with
      | (j, n) :: more => if j = i + 1 then (i, n + 1) :: more else (i, 1) :: (j, n) :: more
      | [] => [(i, 1)]

/-- The first longest run of at least two zero pieces. -/
def gap? (ps : List Nat) : Option (Nat × Nat) :=
  ((zeroRuns 0 ps).filter fun (_, n) => 2 ≤ n).foldl
    (fun best run =>
      match best with
      | some b => if b.2 < run.2 then some run else some b
      | none => some run) none

def colons (ps : List Nat) : List Char := [':'].intercalate (ps.map (Nat.toDigits 16))

def render (ps : List Nat) : List Char :=
  match gap? ps with
  | none => colons ps
  | some (i, n) => colons (ps.take i) ++ [':', ':'] ++ colons (ps.drop (i + n))

end Stairway.Url.Ipv6
