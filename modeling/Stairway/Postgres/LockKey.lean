import Stairway.Digest.Blake3
import Stairway.Text.Utf8

/-!
# Keys of advisory locks

Whoever migrates the same database with the same version table asks for the same lock. Its key is
taken from a hash of the two names: the first eight bytes, the highest first, as a signed number.
-/

namespace Stairway.Postgres

/-- The number of bytes, the highest first. -/
def bigEndian (bytes : List UInt8) : Nat := bytes.foldl (fun n b => n * 256 + b.toNat) 0

/-- What a lock key is the hash of. -/
def lockText (database table : List Char) : List Char := database ++ ':' :: table

/-- A number as the server keeps it in 64 bits, with a sign. -/
def toBigint (n : Nat) : Int := (Int.ofNat n).bmod 0x10000000000000000

def lockKey (database table : List Char) : Int :=
  toBigint (bigEndian ((Digest.Blake3.hash (Text.Utf8.encode (lockText database table))).take 8))

end Stairway.Postgres
