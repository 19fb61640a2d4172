import Stairway.Url.Basic

/-!
# Reading URLs

A URL is read from left to right: scheme, authority if `//` follows, path up to `?` or `#`, query up
to `#`, fragment. Control characters and blanks at the ends, and tabs and line ends anywhere, do not
count. There is no base, so a text without a scheme is refused. What the parts mean depends on the
scheme only for the few schemes of the web and of files, where a backslash is a slash and a host is
required.
-/

namespace Stairway.Url

/-- How a scheme treats what follows it. -/
inductive SchemeKind where
  | plain
  | web
  | file
  deriving DecidableEq

def SchemeKind.of (scheme : List Char) : SchemeKind :=
  if scheme = "file".toList then .file
  else if ["http", "https", "ws", "wss", "ftp"].any (·.toList = scheme) then .web
  else .plain

/-- The port that a scheme of the web has when none is written. -/
def defaultPort (scheme : List Char) : Option Nat :=
  if scheme = "http".toList || scheme = "ws".toList then some 80
  else if scheme = "https".toList || scheme = "wss".toList then some 443
  else if scheme = "ftp".toList then some 21
  else none

/-- The scheme in small letters, and what follows its colon. -/
def splitScheme (s : List Char) : Option (List Char × List Char) :=
  let isSchemeChar (c : Char) : Bool := c.isAlphanum || c == '+' || c == '-' || c == '.'
  let name := s.takeWhile isSchemeChar
  match s.head?, s.dropWhile isSchemeChar with
  | some c, ':' :: rest => if c.isAlpha then some (name.map Char.toLower, rest) else none
  | _, _ => none

/-- Cuts before the first character that holds `p`. -/
def splitAtFirst (p : Char → Bool) (s : List Char) : List Char × List Char :=
  (s.takeWhile (!p ·), s.dropWhile (!p ·))

/-- Splits off what stands before the last `@`. -/
def splitUserinfo (s : List Char) : Option (List Char × List Char) :=
  if s.contains '@' then
    let after := (s.reverse.takeWhile (· ≠ '@')).reverse
    some (s.take (s.length - after.length - 1), after)
  else none

/-- Splits a host and what follows it: a colon ends it, unless it stands in square brackets. -/
def splitHost : Bool → List Char → List Char × List Char
  | _, [] => ([], [])
  | inside, c :: rest =>
    if c == ':' && !inside then ([], c :: rest)
    else
      let inside := if c == '[' then true else if c == ']' then false else inside
      let (host, rest) := splitHost inside rest
      (c :: host, rest)

/-- The port after its colon: at most 65535, and nothing else. -/
def parsePort (s : List Char) : Except UrlError (Option Nat) :=
  if s.isEmpty then .ok none
  else if !s.all Char.isDigit then .error .invalidPort
  else
    let n := s.foldl (fun n c => n * 10 + (c.toNat - 48)) 0
    if n ≤ 65535 then .ok (some n) else .error .invalidPort

/-- Reads an authority; `next` is the character that ends it. A backslash ends a port, though not a
plain host. -/
def parseAuthority (kind : SchemeKind) (scheme text : List Char) (next : Option Char) :
    Except UrlError (Authority × List Char) := do
  let (userinfo, rest) ←
    match splitUserinfo text with
    | none => pure ([], text)
    | some (info, rest) =>
      if info.isEmpty && rest.isEmpty && next.isSome then throw .emptyHost
      pure (info, rest)
  let user := userinfo.takeWhile (· ≠ ':')
  let password := (userinfo.dropWhile (· ≠ ':')).drop 1
  let code := Percent.encode Percent.sparedInUserinfo
  let (hostText, rest) := splitHost false rest
  if kind = .web && hostText.isEmpty then throw .emptyHost
  let host ← if kind = .plain then Host.parseOpaque hostText else Host.parseDomain hostText
  if host.isEmpty && !rest.isEmpty then throw .emptyHost
  let (portText, rest) := splitAtFirst (· == '\\') (rest.drop 1)
  let port ← parsePort portText
  if host.isEmpty && !(user.isEmpty && password.isEmpty) then throw .emptyHost
  let port := if port = defaultPort scheme then none else port
  pure (⟨code user, if password.isEmpty then none else some (code password), host, port⟩, rest)

/-- Query and fragment from the `?` or `#` on. -/
def parseTail (kind : SchemeKind) (s : List Char) : Option (List Char) × Option (List Char) :=
  let (query, rest) := splitAtFirst (· == '#') s
  let spared (c : Char) : Bool := Percent.sparedInQuery c && !(kind ≠ .plain && c == '\'')
  let query :=
    match query with
    | '?' :: q => some (Percent.encode spared q)
    | _ => none
  let fragment :=
    match rest with
    | '#' :: f => some (Percent.encode Percent.sparedInFragment f)
    | _ => none
  (query, fragment)

/-- The host of a file, between `//` and the next slash; a drive letter is none. -/
def parseFileHost (text : List Char) : Except UrlError Host :=
  if text.isEmpty || Path.isDriveLetter text then .ok (.name [])
  else
    match Host.parseDomain text with
    | .ok h => .ok (if h = .name "localhost".toList then .name [] else h)
    | .error e => .error e

/-- Reads what follows the scheme. -/
def parseAfterScheme (scheme rest : List Char) : Except UrlError Url := do
  let kind := SchemeKind.of scheme
  let isSlash (c : Char) : Bool := c == '/' || (kind ≠ .plain && c == '\\')
  let (front, tail) := splitAtFirst (fun c => c == '?' || c == '#') rest
  let (query, fragment) := parseTail kind tail
  let pathOf (s : List Char) : List Char :=
    match s with
    | [] => if kind = .plain then [] else ['/']
    | c :: more => if isSlash c then Path.ofText isSlash more else Path.ofText isSlash s
  match kind with
  | .file =>
    if (front.take 2).length = 2 && (front.take 2).all isSlash then
      let (hostText, path) := splitAtFirst isSlash (front.drop 2)
      let host ← parseFileHost hostText
      pure ⟨scheme, some ⟨[], none, host, none⟩, pathOf path, query, fragment⟩
    else pure ⟨scheme, some ⟨[], none, .name [], none⟩, pathOf front, query, fragment⟩
  | .web =>
    let (authority, path) := splitAtFirst isSlash (front.dropWhile isSlash)
    let next := (path ++ tail).head?
    let (a, more) ← parseAuthority kind scheme authority next
    pure ⟨scheme, some a, pathOf (more ++ path), query, fragment⟩
  | .plain =>
    match front with
    | '/' :: '/' :: front =>
      let (authority, path) := splitAtFirst isSlash front
      let next := (path ++ tail).head?
      let (a, more) ← parseAuthority kind scheme authority next
      pure ⟨scheme, some a, pathOf (more ++ path), query, fragment⟩
    | '/' :: front => pure ⟨scheme, none, Path.ofText isSlash front, query, fragment⟩
    | front => pure ⟨scheme, none, Percent.encode Percent.sparedByControls front, query, fragment⟩

/-- Reads a URL. -/
def parse (text : String) : Except UrlError Url :=
  let blank (c : Char) : Bool := c.toNat ≤ 0x20
  let trimmed := ((text.toList.dropWhile blank).reverse.dropWhile blank).reverse
  match splitScheme (trimmed.filter (!isDropped ·)) with
  | none => .error .relativeWithoutBase
  | some (scheme, rest) => parseAfterScheme scheme rest

end Stairway.Url
