import Stairway.Text.Utf8

/-!
# Percent coding

`encode keep s` writes every character that `keep` does not spare as the UTF-8 bytes of it, each
byte as `%` and two capital hexadecimal digits. `decode` reads such groups back into bytes and
leaves a `%` that does not begin one as it is. The sets below say what each part of a URL spares.
-/

namespace Stairway.Url.Percent

open Stairway.Text

def hexDigit (n : Nat) : Char := if n < 10 then Char.ofNat (48 + n) else Char.ofNat (55 + n)

def hexValue? (c : Char) : Option Nat :=
  if '0' ≤ c && c ≤ '9' then some (c.toNat - 48)
  else if 'A' ≤ c && c ≤ 'F' then some (c.toNat - 55)
  else if 'a' ≤ c && c ≤ 'f' then some (c.toNat - 87)
  else none

def encodeByte (b : UInt8) : List Char := ['%', hexDigit (b.toNat / 16), hexDigit (b.toNat % 16)]

def encode (keep : Char → Bool) (s : List Char) : List Char :=
  s.flatMap fun c => if keep c then [c] else (String.utf8EncodeChar c).flatMap encodeByte

def decode : List Char → List UInt8
  | '%' :: a :: b :: rest =>
    match hexValue? a, hexValue? b with
    | some x, some y => UInt8.ofNat (16 * x + y) :: decode rest
    | _, _ => 0x25 :: decode (a :: b :: rest)
  | c :: rest => String.utf8EncodeChar c ++ decode rest
  | [] => []

/-- Spared everywhere: ASCII without control characters. -/
def sparedByControls (c : Char) : Bool := 0x20 ≤ c.toNat && c.toNat < 0x7F

def sparedInFragment (c : Char) : Bool :=
  sparedByControls c && !(" \"<>`".toList.contains c)

def sparedInQuery (c : Char) : Bool :=
  sparedByControls c && !(" \"#<>".toList.contains c)

def sparedInPath (c : Char) : Bool :=
  sparedInFragment c && !("#?\x7b\x7d".toList.contains c)

def sparedInUserinfo (c : Char) : Bool :=
  sparedInPath c && !("/:;=@[\\]^|".toList.contains c)

end Stairway.Url.Percent
