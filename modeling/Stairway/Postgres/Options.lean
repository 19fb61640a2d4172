import Stairway.Postgres.Error
import Stairway.Text.Number
import Stairway.Text.Quoted
import Stairway.Url.Basic

/-!
# Options of a connection

What the address that reaches the server says: who connects where, to which database, and whether
the connection must be encrypted. The parts of the URL come first, then the pairs of its query in
order, each of which may replace what was said before.
-/

namespace Stairway.Postgres

inductive Encryption where
  | disable
  | allow
  | prefer
  | require
  | verifyAuthority
  | verifyFull
  deriving DecidableEq, Repr

namespace Encryption

def ofName? (name : String) : Option Encryption :=
  match name with
  | "disable" => some disable
  | "allow" => some allow
  | "prefer" => some prefer
  | "require" => some require
  | "verify-ca" => some verifyAuthority
  | "verify-full" => some verifyFull
  | _ => none

/-- Whether a connection that is not encrypted is none. -/
def isRequired : Encryption → Bool
  | require | verifyAuthority | verifyFull => true
  | _ => false

end Encryption

/-- Where a server listens. -/
inductive Endpoint where
  | network (host : String)
  | socket (path : String)
  deriving DecidableEq, Repr

structure ConnectionOptions where
  endpoint : Endpoint := .network "localhost"
  port : Nat := 5432
  /-- `none`: as the person who runs the program is called. -/
  user : Option String := none
  password : Option String := none
  database : Option String := none
  encryption : Encryption := .prefer
  deriving DecidableEq, Repr

namespace ConnectionOptions

open Stairway.Text

abbrev Result := Except ConnectionError ConnectionOptions

/-- The text behind percent coding. -/
def decoded (s : List Char) : Except ConnectionError String :=
  let bytes := Url.Percent.decode s
  match Utf8.decode? bytes with
  | some text => .ok (String.ofList text)
  | none => .error (.configuration ((Utf8.fault? bytes).elim "" Utf8.faultMessage))

def endpointOf (s : String) : Endpoint :=
  if s.toList.head? = some '/' then .socket s else .network s

def number (largest : Nat) (value : String) : Except ConnectionError Nat :=
  (readNumber largest value.toList).mapError fun fault => .configuration fault.message

/-- Four decimal numbers below 256, written without needless zeros. -/
def isIpv4 (s : List Char) : Bool :=
  let parts := s.splitOn '.'
  parts.length = 4 && parts.all fun p =>
    !p.isEmpty && p.all Char.isDigit && p.length ≤ 3 && (p.length = 1 || p.head? ≠ some '0')
      && (readNumber 255 p).isOk

def lower (s : String) : String := String.ofList (s.toList.map Char.toLower)

/-- Takes in one pair of the query; a key that means nothing is passed over. -/
def read (o : ConnectionOptions) (pair : List Char × List Char) : Result :=
  let value := String.ofList pair.2
  match String.ofList pair.1 with
  | "sslmode" | "ssl-mode" =>
    match Encryption.ofName? (lower value) with
    | some e => .ok { o with encryption := e }
    | none =>
      let fault :=
        ConnectionError.configuration ("unknown value " ++ quoted value ++ " for \x60ssl_mode\x60")
      .error (.configuration fault.message)
  | "statement-cache-capacity" => do
    let _ ← number 0xFFFFFFFFFFFFFFFF value
    return o
  | "host" => .ok { o with endpoint := endpointOf value }
  | "hostaddr" =>
    if isIpv4 pair.2 || (Url.Ipv6.parse? pair.2).isSome then
      .ok { o with endpoint := .network value }
    else .error (.configuration "invalid IP address syntax")
  | "port" => do
    let port ← number 0xFFFF value
    return { o with port }
  | "dbname" => .ok { o with database := some value }
  | "user" => .ok { o with user := some value }
  | "password" => .ok { o with password := some value }
  | _ => .ok o

/-- A part of a URL that is left out if it is empty. -/
def part (s : List Char) : Except ConnectionError (Option String) :=
  if s.isEmpty then .ok none else (decoded s).map some

/-- What a URL says. -/
def ofUrl (u : Url) : Result := do
  let d : ConnectionOptions := {}
  let host := (u.authority.map (·.host.render)).getD []
  let endpoint ←
    if host.isEmpty then pure d.endpoint
    else if (Url.Percent.decode host).head? = some 0x2F then pure (Endpoint.socket (← decoded host))
    else pure (Endpoint.network (String.ofList host))
  let port := (u.authority.bind (·.port)).getD d.port
  let user ← part ((u.authority.map (·.user)).getD [])
  let password ← part ((u.authority.bind (·.password)).getD [])
  let database ← part (u.path.dropWhile (· == '/'))
  u.pairs.foldlM read { d with endpoint, port, user, password, database }

end ConnectionOptions

end Stairway.Postgres
