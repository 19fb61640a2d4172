import Stairway.Pattern.Basic

/-!
# Reading patterns

The notation of patterns: literal characters, `.`, classes in square brackets with ranges, named
classes and set operations, escapes, anchors, groups with names and flags, choice, and repetition
with `*`, `+`, `?` and counts. Neither references to groups nor looking ahead or behind exist.
Whether a repetition is greedy makes no difference to whether a text fits.

Reading follows the nesting: `alternatives` reads up to the parenthesis that closes it, `sequence`
up to the next bar. Every call consumes a character before it calls itself, so the length of the
text bounds the depth.
-/

namespace Stairway.Pattern

/-- Switches that change how what follows is read. -/
structure Flags where
  ignoreCase : Bool := false
  multiLine : Bool := false
  dotMatchesNewline : Bool := false
  ascii : Bool := false
  extended : Bool := false
  crlf : Bool := false

/-- Code points of the ASCII classes by name. -/
def namedClass (name : String) : Option CharSet :=
  let letters := CharSet.union (.range 'a' 'z') (.range 'A' 'Z')
  let numbers := CharSet.range '0' '9'
  match name with
  | "alnum" => some (.union letters numbers)
  | "alpha" => some letters
  | "ascii" => some (.range '\x00' '\x7f')
  | "blank" => some (CharSet.ofList ['\t', ' '])
  | "cntrl" => some (.union (.range '\x00' '\x1f') (.one '\x7f'))
  | "digit" => some numbers
  | "graph" => some (.range '!' '~')
  | "lower" => some (.range 'a' 'z')
  | "print" => some (.range ' ' '~')
  | "punct" =>
    some (.union (.union (.range '!' '/') (.range ':' '@'))
      (.union (.range '[' '\x60') (.range '\x7b' '~')))
  | "space" => some (CharSet.ofList ['\t', '\n', '\x0b', '\x0c', '\r', ' '])
  | "upper" => some (.range 'A' 'Z')
  | "word" => some (.union (.union letters numbers) (.one '_'))
  | "xdigit" => some (.union numbers (.union (.range 'a' 'f') (.range 'A' 'F')))
  | _ => none

def asciiDigits : CharSet := .range '0' '9'

def asciiBlanks : CharSet := CharSet.ofList ['\t', '\n', '\x0b', '\x0c', '\r', ' ']

def asciiWord : CharSet :=
  .union (.union (.range 'a' 'z') (.range 'A' 'Z')) (.union asciiDigits (.one '_'))

/-- What an escape stands for. -/
inductive Escape where
  | char (c : Char)
  | set (s : CharSet)
  | anchor (a : Anchor)

/-- The character with a number, if there is one. -/
def charOfNat? (n : Nat) : Option Char :=
  if n < 0xD800 || (0xDFFF < n && n < 0x110000) then some (Char.ofNat n) else none

def hexValue? (c : Char) : Option Nat :=
  if '0' ≤ c && c ≤ '9' then some (c.toNat - 48)
  else if 'A' ≤ c && c ≤ 'F' then some (c.toNat - 55)
  else if 'a' ≤ c && c ≤ 'f' then some (c.toNat - 87)
  else none

/-- A number of hexadecimal digits: `width` of them, or any number in braces. -/
def hexEscape (width : Nat) (s : List Char) : Option (Char × List Char) :=
  let value (ds : List Char) : Option Nat := ds.foldlM (fun n c => (hexValue? c).map (n * 16 + ·)) 0
  match s with
  | '\x7b' :: rest =>
    let ds := rest.takeWhile (· ≠ '\x7d')
    match rest.dropWhile (· ≠ '\x7d') with
    | _ :: rest => if ds.isEmpty then none else do
        let c ← charOfNat? (← value ds)
        pure (c, rest)
    | [] => none
  | s => do
    if (s.take width).length < width then none
    let c ← charOfNat? (← value (s.take width))
    pure (c, s.drop width)

/-- The words in braces after `\b`. A brace that no letter follows belongs to a repetition. -/
def boundaryName (ascii : Bool) (s : List Char) : Option (Anchor × List Char) :=
  match s with
  | '\x7b' :: c :: rest =>
    if !(c.isAlpha || c == '-') then some (.wordBoundary ascii, s)
    else
      let name := (c :: rest).takeWhile (· ≠ '\x7d')
      match (c :: rest).dropWhile (· ≠ '\x7d') with
      | [] => none
      | _ :: rest =>
        match String.ofList name with
        | "start" => some (.wordStart ascii, rest)
        | "end" => some (.wordEnd ascii, rest)
        | "start-half" => some (.wordStartHalf ascii, rest)
        | "end-half" => some (.wordEndHalf ascii, rest)
        | _ => none
  | s => some (.wordBoundary ascii, s)

/-- Reads what follows a backslash. -/
def escape (f : Flags) : List Char → Option (Escape × List Char)
  | [] => none
  | c :: rest =>
    let set (neg : Bool) (s : CharSet) : Option (Escape × List Char) :=
      if neg then (if f.ascii then none else some (.set (.complement s), rest))
        else some (.set s, rest)
    match c with
    | 'd' => set false (if f.ascii then asciiDigits else .digit)
    | 'D' => set true (if f.ascii then asciiDigits else .digit)
    | 's' => set false (if f.ascii then asciiBlanks else .blank)
    | 'S' => set true (if f.ascii then asciiBlanks else .blank)
    | 'w' => set false (if f.ascii then asciiWord else .word)
    | 'W' => set true (if f.ascii then asciiWord else .word)
    | 'x' => (hexEscape 2 rest).map fun (c, rest) => (.char c, rest)
    | 'u' => (hexEscape 4 rest).map fun (c, rest) => (.char c, rest)
    | 'U' => (hexEscape 8 rest).map fun (c, rest) => (.char c, rest)
    | 'a' => some (.char '\x07', rest)
    | 'f' => some (.char '\x0c', rest)
    | 't' => some (.char '\t', rest)
    | 'n' => some (.char '\n', rest)
    | 'r' => some (.char '\r', rest)
    | 'v' => some (.char '\x0b', rest)
    | 'A' => some (.anchor .textStart, rest)
    | 'z' => some (.anchor .textEnd, rest)
    | 'B' => some (.anchor (.notWordBoundary f.ascii), rest)
    | '<' => some (.anchor (.wordStart f.ascii), rest)
    | '>' => some (.anchor (.wordEnd f.ascii), rest)
    | 'b' => (boundaryName f.ascii rest).map fun (a, rest) => (.anchor a, rest)
    | c => if c.toNat < 0x80 && !c.isAlphanum then some (.char c, rest) else none

/-- Drops blanks, and comments up to the end of the line, where they do not count. -/
def skipBlank (f : Flags) : List Char → List Char
  | [] => []
  | c :: rest =>
    if !f.extended then c :: rest
    else if Text.blanks.has c then skipBlank f rest
    else if c == '#' then skipComment f rest
    else c :: rest
where
  skipComment (f : Flags) : List Char → List Char
    | [] => []
    | c :: rest => if c == '\n' then skipBlank f rest else skipComment f rest

def withCase (f : Flags) (s : CharSet) : CharSet := if f.ignoreCase then .anyCase s else s

/-- A named class such as `[:alpha:]`, after its opening bracket. -/
def named? : List Char → Option (CharSet × List Char)
  | ':' :: rest =>
    let (neg, rest) :=
      match rest with
      | '^' :: rest => (true, rest)
      | rest => (false, rest)
    let name := rest.takeWhile fun c => c ≠ ':' && c ≠ ']'
    match rest.dropWhile fun c => c ≠ ':' && c ≠ ']' with
    | ':' :: ']' :: rest =>
      (namedClass (String.ofList name)).map fun s => (if neg then .complement s else s, rest)
    | _ => none
  | _ => none

inductive SetOp where
  | inter
  | diff
  | symDiff

/-- Joins what stands left of a set operation with what has been gathered since. -/
def applyOp (left : Option (CharSet × SetOp)) (right : CharSet) : CharSet :=
  match left with
  | none => right
  | some (l, .inter) => .inter l right
  | some (l, .diff) => .diff l right
  | some (l, .symDiff) => .symDiff l right

/-- One member of a class: a character, or a set by its escape. -/
def classItem (f : Flags) : List Char → Option ((Char ⊕ CharSet) × List Char)
  | [] => none
  | '\\' :: rest =>
    match escape f rest with
    | some (.char c, rest) => some (.inl c, rest)
    | some (.set s, rest) => some (.inr s, rest)
    | _ => none
  | c :: rest => some (.inl c, rest)

/-- The beginning of a class after its bracket: whether it is negated, and members that would mean
something else further on, which are dashes and one closing bracket. -/
def classOpening (f : Flags) (s : List Char) : Bool × CharSet × List Char :=
  let s := skipBlank f s
  let (neg, s) :=
    match s with
    | '^' :: rest => (true, skipBlank f rest)
    | s => (false, s)
  let dashes := s.takeWhile (· == '-')
  let s := skipBlank f (s.dropWhile (· == '-'))
  match dashes, s with
  | [], ']' :: rest => (neg, .one ']', skipBlank f rest)
  | [], s => (neg, .nothing, s)
  | _, s => (neg, .one '-', s)

/-- Reads a class after its opening. `left` is what stands before the last set operation. -/
def classBody (f : Flags) : Nat → Option (CharSet × SetOp) → CharSet → List Char →
    Option (CharSet × List Char)
  | 0, _, _, _ => none
  | n + 1, left, gathered, s =>
    let go (left : Option (CharSet × SetOp)) (gathered : CharSet) (s : List Char) :=
      classBody f n left gathered s
    match skipBlank f s with
    | [] => none
    | ']' :: rest => some (applyOp left gathered, rest)
    | '&' :: '&' :: rest => go (some (applyOp left gathered, .inter)) .nothing rest
    | '-' :: '-' :: rest => go (some (applyOp left gathered, .diff)) .nothing rest
    | '~' :: '~' :: rest => go (some (applyOp left gathered, .symDiff)) .nothing rest
    | '[' :: rest =>
      match named? rest with
      | some (s, rest) => go left (.union gathered (withCase f s)) rest
      | none =>
        let (neg, start, rest) := classOpening f rest
        match classBody f n none (withCase f start) rest with
        | some (inner, rest) =>
          if neg && f.ascii then none
          else go left (.union gathered (if neg then .complement inner else inner)) rest
        | none => none
    | s =>
      match classItem f s with
      | none => none
      | some (first, rest) =>
        match skipBlank f rest with
        | [] => none
        | '-' :: more =>
          match skipBlank f more, first with
          | ']' :: _, _ => go left (.union gathered (itemSet first)) rest
          | '-' :: _, _ => go left (.union gathered (itemSet first)) rest
          | more, .inl low =>
            match classItem f more with
            | some (.inl high, rest) =>
              if low ≤ high then go left (.union gathered (withCase f (.range low high))) rest
              else none
            | _ => none
          | _, .inr _ => none
        | rest => go left (.union gathered (itemSet first)) rest
where
  itemSet : Char ⊕ CharSet → CharSet
    | .inl c => withCase f (.one c)
    | .inr s => s

/-- Reads a class after its opening bracket. -/
def charClass (f : Flags) (s : List Char) : Option (CharSet × List Char) :=
  let (neg, start, rest) := classOpening f s
  match classBody f (s.length + 1) none (withCase f start) rest with
  | some (inner, rest) =>
    if neg && f.ascii then none else some (if neg then .complement inner else inner, rest)
  | none => none

/-- The number at the front, blanks around it not counting; it has at most 32 bits. -/
def count? (s : List Char) : Option (Nat × List Char) :=
  let s := s.dropWhile Text.blanks.has
  let ds := s.takeWhile Char.isDigit
  let n := ds.foldl (fun n c => n * 10 + (c.toNat - 48)) 0
  if ds.isEmpty || n > 0xFFFFFFFF then none
  else some (n, (s.dropWhile Char.isDigit).dropWhile Text.blanks.has)

/-- The bounds of a repetition after its opening brace. -/
def bounds? (s : List Char) : Option (Nat × Option Nat × List Char) := do
  let (least, s) ← count? s
  match s with
  | '\x7d' :: rest => pure (least, some least, rest)
  | ',' :: rest =>
    match rest.dropWhile Text.blanks.has with
    | '\x7d' :: rest => pure (least, none, rest)
    | rest =>
      let (most, s) ← count? rest
      match s with
      | '\x7d' :: rest => if least ≤ most then pure (least, some most, rest) else none
      | _ => none
  | _ => none

/-- Flags up to the colon or parenthesis that ends them, each at most once and with one minus. -/
def flags? (f : Flags) (neg : Bool) (seen : List Char) :
    List Char → Option (Flags × List Char × List Char)
  | [] => none
  | c :: rest =>
    let set (change : Flags → Bool → Flags) : Option (Flags × List Char × List Char) :=
      if seen.contains c then none else flags? (change f (!neg)) neg (c :: seen) rest
    match c with
    | ':' | ')' => if seen.head? == some '-' then none else some (f, seen, c :: rest)
    | '-' => if seen.contains '-' then none else flags? f true ('-' :: seen) rest
    | 'i' => set fun f b => { f with ignoreCase := b }
    | 'm' => set fun f b => { f with multiLine := b }
    | 's' => set fun f b => { f with dotMatchesNewline := b }
    | 'U' => set fun f _ => f
    | 'u' => set fun f b => { f with ascii := !b }
    | 'x' => set fun f b => { f with extended := b }
    | 'R' => set fun f b => { f with crlf := b }
    | _ => none

/-- The name of a group up to its closing bracket. -/
def groupName? (s : List Char) : Option (List Char × List Char) :=
  let name := s.takeWhile (· ≠ '>')
  match name, s.dropWhile (· ≠ '>') with
  | c :: more, _ :: rest =>
    if (c == '_' || c.isAlpha || (c.toNat ≥ 0x80 && Text.wordChars.has c && !Text.digits.has c))
        && more.all fun c => c == '_' || c == '.' || c == '[' || c == ']' || c.isAlphanum
          || (c.toNat ≥ 0x80 && Text.wordChars.has c) then
      some (name, rest)
    else none
  | _, _ => none

/-- The characters that `.` stands for. -/
def anyChar (f : Flags) : Option CharSet :=
  if f.ascii then none
  else if f.dotMatchesNewline then some (.complement .nothing)
  else if f.crlf then some (.complement (CharSet.ofList ['\n', '\r']))
  else some (.complement (.one '\n'))

/-- What has been read of a group: its choices so far, the sequence under way, and the part of it
that a repetition would apply to. -/
structure Reading where
  choices : Option Pattern := none
  before : Pattern := .empty
  /-- `none` where there is nothing to repeat. -/
  last : Option Pattern := none
  flags : Flags := {}
  names : List (List Char) := []

namespace Reading

/-- Adds a part to the sequence. -/
def push (r : Reading) (p : Pattern) : Reading :=
  { r with before := r.last.elim r.before (.seq r.before), last := some p }

/-- The sequence under way. -/
def current (r : Reading) : Pattern := r.last.elim r.before (.seq r.before)

/-- Closes a choice. -/
def bar (r : Reading) : Reading :=
  { r with
    choices := some (r.choices.elim r.current (.alt · r.current)), before := .empty, last := none }

def result (r : Reading) : Pattern := r.choices.elim r.current (.alt · r.current)

/-- Repeats the last part. -/
def repeat? (r : Reading) (least : Nat) (most : Option Nat) : Option Reading :=
  r.last.map fun p => { r with last := some (.rep least most p) }

end Reading

/-- Drops the mark of a repetition that prefers to be short. -/
def skipLazy : List Char → List Char
  | '?' :: rest => rest
  | s => s

/-- Reads a group up to its closing parenthesis, or the whole text where `nested` is false. Gives
what is read, the names used and what follows. -/
def group : Nat → (nested : Bool) → Reading → List Char → Option (Reading × List Char)
  | 0, _, _, _ => none
  | n + 1, nested, r, s =>
    match skipBlank r.flags s with
    | [] => if nested then none else some (r, [])
    | '|' :: rest => group n nested r.bar rest
    | ')' :: rest => if nested then some (r, rest) else none
    | '(' :: rest =>
      let inner (names : List (List Char)) (f : Flags) (rest : List Char) :
          Option (Reading × List Char) := do
        let (i, rest) ← group n true { flags := f, names } rest
        group n nested ({ r with names := i.names }.push i.result) rest
      let namedGroup (rest : List Char) : Option (Reading × List Char) := do
        let (name, rest) ← groupName? rest
        if r.names.contains name then none else inner (name :: r.names) r.flags rest
      match skipBlank r.flags rest with
      | '?' :: 'P' :: '<' :: rest => namedGroup rest
      | '?' :: '<' :: '=' :: _ => none
      | '?' :: '<' :: '!' :: _ => none
      | '?' :: '<' :: rest => namedGroup rest
      | '?' :: rest =>
        match flags? r.flags false [] rest with
        | some (f, _, ':' :: rest) => inner r.names f rest
        | some (f, _ :: _, ')' :: rest) =>
          group n nested { r with flags := f, before := r.current, last := none } rest
        | _ => none
      | rest => inner r.names r.flags rest
    | '*' :: rest => (r.repeat? 0 none).bind fun r => group n nested r (skipLazy rest)
    | '+' :: rest => (r.repeat? 1 none).bind fun r => group n nested r (skipLazy rest)
    | '?' :: rest => (r.repeat? 0 (some 1)).bind fun r => group n nested r (skipLazy rest)
    | '\x7b' :: rest => do
      let (least, most, rest) ← bounds? rest
      let r ← r.repeat? least most
      group n nested r (skipLazy rest)
    | '[' :: rest => do
      let (set, rest) ← charClass r.flags rest
      group n nested (r.push (.char set)) rest
    | '.' :: rest => do
      let set ← anyChar r.flags
      group n nested (r.push (.char set)) rest
    | '^' :: rest =>
      let a : Anchor := if r.flags.multiLine then .lineStart r.flags.crlf else .textStart
      group n nested (r.push (.anchor a)) rest
    | '$' :: rest =>
      let a : Anchor := if r.flags.multiLine then .lineEnd r.flags.crlf else .textEnd
      group n nested (r.push (.anchor a)) rest
    | '\\' :: rest => do
      let (e, rest) ← escape r.flags rest
      let p :=
        match e with
        | .char c => .char (withCase r.flags (.one c))
        | .set s => .char s
        | .anchor a => .anchor a
      group n nested (r.push p) rest
    | c :: rest => group n nested (r.push (.char (withCase r.flags (.one c)))) rest

/-- Reads a pattern; `none` if the text is none, or one that is too large. -/
def parse? (text : String) : Option Pattern := do
  let s := text.toList
  let (r, _) ← group (s.length + 1) false {} s
  if r.result.steps ≤ stepLimit then some r.result else none

end Stairway.Pattern
