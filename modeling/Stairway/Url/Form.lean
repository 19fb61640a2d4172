import Stairway.Url.Percent

/-!
# Query pairs

The pairs of a query as a form sends them: `key=value` joined by `&`, a blank as `+`, and every byte
but letters, digits and `*-._` percent-coded. Reading skips empty pieces, takes a piece without `=`
as a key with no value, and replaces what is not UTF-8.
-/

namespace Stairway.Url.Form

open Stairway.Text

/-- Letters, digits and the four marks that a form spares. -/
def isSpared (c : Char) : Bool := c.isAlphanum || "*-._".toList.contains c

def encode (s : List Char) : List Char :=
  s.flatMap fun c =>
    if c == ' ' then ['+']
    else if isSpared c then [c]
    else (String.utf8EncodeChar c).flatMap Percent.encodeByte

def decode (s : List Char) : List Char :=
  Utf8.decodeLossy (Percent.decode (s.map fun c => if c == '+' then ' ' else c))

def encodePair (p : List Char × List Char) : List Char := encode p.1 ++ '=' :: encode p.2

/-- The text of some pairs in order. -/
def encodePairs (ps : List (List Char × List Char)) : List Char :=
  ['&'].intercalate (ps.map encodePair)

/-- A piece as key and value, cut at its first `=`. -/
def decodePair (piece : List Char) : List Char × List Char :=
  (decode (piece.takeWhile (· ≠ '=')), decode ((piece.dropWhile (· ≠ '=')).drop 1))

/-- The pairs of a query text in order. -/
def decodePairs (query : List Char) : List (List Char × List Char) :=
  ((query.splitOn '&').filter (!·.isEmpty)).map decodePair

end Stairway.Url.Form
