import Stairway.Url.Error
import Stairway.Url.Ipv6

/-!
# Hosts

A host is a name or an address. Under most schemes a name is kept as it is written, with control and
non-ASCII characters percent-coded, and only refused if it holds a character that would end it.
Under the few schemes of the web and of files a name is lower-cased and percent-decoded, and one
that ends in a number must be an IPv4 address.
-/

namespace Stairway.Url

inductive Host where
  /-- A name; the empty name is no host. -/
  | name (text : List Char)
  | ipv4 (address : Nat)
  | ipv6 (pieces : List Nat)
  deriving DecidableEq, Repr

namespace Host

def isEmpty : Host → Bool
  | name text => text.isEmpty
  | _ => false

def render : Host → List Char
  | name text => text
  | ipv4 a =>
    let piece (i : Nat) := Nat.toDigits 10 ((a >>> (8 * i)) % 256)
    ['.'].intercalate [piece 3, piece 2, piece 1, piece 0]
  | ipv6 ps => '[' :: Ipv6.render ps ++ [']']

/-- An address in square brackets. -/
def bracketed (s : List Char) : Except UrlError Host :=
  if s.getLast? ≠ some ']' then .error .invalidIpv6
  else
    match Ipv6.parse? (s.drop 1).dropLast with
    | some ps => .ok (.ipv6 ps)
    | none => .error .invalidIpv6

/-- Characters that no host may hold. -/
def isForbidden (c : Char) : Bool := "\x00\t\n\r #/:<>?@[\\]^|".toList.contains c

/-- A host under a scheme that gives it no meaning. -/
def parseOpaque (s : List Char) : Except UrlError Host :=
  if s.head? = some '[' then bracketed s
  else if s.any isForbidden then .error .invalidDomainCharacter
  else .ok (.name (Percent.encode Percent.sparedByControls s))

/-- A number of an IPv4 address: decimal, octal after `0`, hexadecimal after `0x`. -/
def ipv4Number? (s : List Char) : Option Nat :=
  let inBase (base : Nat) (s : List Char) : Option Nat :=
    s.foldlM
      (fun n c => (Percent.hexValue? c).bind fun d =>
        if d < base then some (n * base + d) else none) 0
  match s with
  | [] => none
  | '0' :: 'x' :: rest => inBase 16 rest
  | '0' :: 'X' :: rest => inBase 16 rest
  | '0' :: d :: rest => inBase 8 (d :: rest)
  | s => inBase 10 s

/-- The labels of a name; an empty last one is dropped. -/
def labels (s : List Char) : List (List Char) :=
  let all := s.splitOn '.'
  if all.getLast? = some [] && all.length > 1 then all.dropLast else all

def endsInNumber (s : List Char) : Bool :=
  match (labels s).getLast? with
  | none => false
  | some l =>
    (!l.isEmpty && l.all Char.isDigit)
      || ((l.take 2 == ['0', 'x'] || l.take 2 == ['0', 'X']) && (ipv4Number? l).isSome)

/-- An IPv4 address: up to four numbers, of which the last fills the bytes that are left. -/
def ipv4? (s : List Char) : Option Nat := do
  let parts := labels s
  if parts.length > 4 then none
  let numbers ← parts.mapM ipv4Number?
  let last ← numbers.getLast?
  let front := numbers.dropLast
  if front.any (· > 255) || last ≥ 1 <<< (8 * (5 - numbers.length)) then none
  let high := (front.zipIdx).foldl (fun n (v, i) => n + v <<< (8 * (3 - i))) 0
  some (high + last)

/-- A host under a scheme of the web or of files. -/
def parseDomain (s : List Char) : Except UrlError Host :=
  if s.head? = some '[' then bracketed s
  else
    match Text.Utf8.decode? (Percent.decode s) with
    | none => .error .invalidInternationalName
    | some decoded =>
      let name := decoded.map Char.toLower
      if name.any fun c => isForbidden c || c.toNat < 0x20 || c == '%' || c.toNat == 0x7F then
        .error .invalidInternationalName
      else if name.isEmpty then .error .emptyHost
      else if endsInNumber name then
        match ipv4? name with
        | some a => .ok (.ipv4 a)
        | none => .error .invalidIpv4
      else .ok (.name name)

end Host

end Stairway.Url
