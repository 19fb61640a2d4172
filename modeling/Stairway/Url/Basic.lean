import Stairway.Url.Form
import Stairway.Url.Host
import Stairway.Url.Path

/-!
# URLs

A URL as its parts: scheme, authority, path, query and fragment. User, password, path, query and
fragment are kept percent-coded, as they are written; `Url.render` only joins the parts, and the
setters code what they are given. A URL without `//` has no authority; its path is opaque unless it
begins with a slash.
-/

namespace Stairway

structure Url.Authority where
  user : List Char
  /-- Never empty. -/
  password : Option (List Char)
  host : Url.Host
  port : Option Nat
  deriving DecidableEq, Repr

structure Url where
  scheme : List Char
  authority : Option Url.Authority
  path : List Char
  query : Option (List Char)
  fragment : Option (List Char)
  deriving DecidableEq, Repr

namespace Url

def Authority.render (a : Authority) : List Char :=
  let userinfo :=
    match a.password with
    | some p => a.user ++ ':' :: p ++ ['@']
    | none => if a.user.isEmpty then [] else a.user ++ ['@']
  let port :=
    match a.port with
    | some n => ':' :: Nat.toDigits 10 n
    | none => []
  '/' :: '/' :: userinfo ++ a.host.render ++ port

/-- The path as it is written: one that begins with `//` and follows no authority is set off by
`/.`. -/
def writtenPath (u : Url) : List Char :=
  if u.authority.isNone && u.path.take 2 == ['/', '/'] then '/' :: '.' :: u.path else u.path

def render (u : Url) : String :=
  let authority := (u.authority.map (·.render)).getD []
  let query := (u.query.map ('?' :: ·)).getD []
  let fragment := (u.fragment.map ('#' :: ·)).getD []
  String.ofList (u.scheme ++ ':' :: authority ++ u.writtenPath ++ query ++ fragment)

/-- Whether the path is a text without structure. -/
def hasOpaquePath (u : Url) : Bool := u.authority.isNone && u.path.head? ≠ some '/'

/-- Puts a user in; a URL without a host has no place for one. -/
def withUser? (u : Url) (user : List Char) : Option Url :=
  match u.authority with
  | some a =>
    if a.host.isEmpty then none
    else
      some { u with
        authority := some { a with user := Percent.encode Percent.sparedInUserinfo user } }
  | none => none

/-- Puts a password in; an empty one is no password. -/
def withPassword? (u : Url) (password : List Char) : Option Url :=
  match u.authority with
  | some a =>
    if a.host.isEmpty then none
    else
      let coded := Percent.encode Percent.sparedInUserinfo password
      some { u with
        authority := some { a with password := if coded.isEmpty then none else some coded } }
  | none => none

/-- Tabs and line ends are dropped wherever a URL is read. -/
def isDropped (c : Char) : Bool := c == '\t' || c == '\n' || c == '\r'

/-- Replaces the path of a URL with an authority by the one that a text after the first slash
spells. -/
def withPath (u : Url) (text : List Char) : Url :=
  { u with path := Path.ofText (· == '/') (text.filter (!isDropped ·)) }

/-- The query's pairs, decoded. -/
def pairs (u : Url) : List (List Char × List Char) := Form.decodePairs (u.query.getD [])

/-- Adds pairs at the end of the query. -/
def withPairs (u : Url) (ps : List (List Char × List Char)) : Url :=
  let old := u.query.getD []
  { u with
    query := some (if old.isEmpty then Form.encodePairs ps else old ++ '&' :: Form.encodePairs ps) }

/-- Drops the query; an opaque path that becomes the end of the URL loses its trailing blanks. -/
def withoutQuery (u : Url) : Url :=
  let u := { u with query := none }
  if u.hasOpaquePath && u.fragment.isNone then
    { u with path := (u.path.reverse.dropWhile (· == ' ')).reverse }
  else u

end Url

end Stairway
