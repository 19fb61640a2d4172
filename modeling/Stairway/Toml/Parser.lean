import Stairway.Toml.Text
import Stairway.Toml.Value

/-!
# Reading a TOML document

A document is a row of lines: a header in square brackets opens a table, and a line `key = value`
puts a value into the table opened last. Keys may be dotted, and keys and texts may be quoted. Of
values, texts, whole numbers, lists and tables in braces are read; any other value, and lists of
tables behind headers in double brackets, are refused, since no setting has one.

Every call consumes a character before it calls itself, so the length of the text bounds the depth.
-/

namespace Stairway.Toml

def skipGap (s : Chars) : Chars := s.dropWhile isGap

def skipComment : Chars → Chars
  | '#' :: rest => rest.dropWhile isPlain
  | s => s

/-- What follows the end of a line, before which there may be a comment. -/
def lineEnd? (s : Chars) : Option Chars :=
  match skipComment (skipGap s) with
  | [] => some []
  | rest => newline? rest

/-- Blanks, line ends and comments at the front, dropped. -/
def skipFiller (inComment : Bool) : Chars → Chars
  | [] => []
  | '\r' :: '\n' :: rest => skipFiller false rest
  | c :: rest =>
    if c == '\n' then skipFiller false rest
    else if inComment then (if isPlain c then skipFiller true rest else c :: rest)
    else if isGap c then skipFiller false rest
    else if c == '#' then skipFiller true rest
    else c :: rest

/-! ## Keys -/

def isBareKeyChar (c : Char) : Bool := c.isAlphanum || c == '-' || c == '_'

def simpleKey? (s : Chars) : Option (String × Chars) :=
  match s with
  | '"' :: rest => (basic rest).map fun (t, after) => (String.ofList t, after)
  | '\'' :: rest => (literal rest).map fun (t, after) => (String.ofList t, after)
  | s =>
    let key := s.takeWhile isBareKeyChar
    if key.isEmpty then none else some (String.ofList key, s.dropWhile isBareKeyChar)

/-- Keys joined by dots, and what follows them and the blanks behind. -/
def dottedKey? : Nat → Chars → Option (List String × Chars)
  | 0, _ => none
  | depth + 1, s => do
    let (key, s) ← simpleKey? (skipGap s)
    match skipGap s with
    | '.' :: s =>
      let (keys, s) ← dottedKey? depth s
      return (key :: keys, s)
    | s => return ([key], s)

/-! ## Numbers -/

/-- The largest whole number. -/
def largest : Int := 0x7FFFFFFFFFFFFFFF

def smallest : Int := -0x8000000000000000

/-- Whether digits have at most single underscores, and those only between them. -/
def isGrouped : Chars → Bool
  | [] => false
  | '_' :: _ => false
  | [_] => true
  | _ :: '_' :: rest => isGrouped rest
  | _ :: rest => isGrouped rest

/-- The value of digits in a base, after a mark or a sign, and what follows them. -/
def digits? (base : Nat) (s : Chars) : Option (Nat × Chars) :=
  let isDigit (c : Char) : Bool := (Url.Percent.hexValue? c).any (· < base)
  let isPart (c : Char) : Bool := isDigit c || c == '_'
  let run := s.takeWhile isPart
  let digits := (run.filter isDigit).filterMap Url.Percent.hexValue?
  if isGrouped run then some (digits.foldl (fun n d => n * base + d) 0, s.dropWhile isPart)
  else none

/-- A decimal number; one of several digits does not begin with zero. -/
def decimal? (s : Chars) : Option (Nat × Chars) :=
  match s with
  | '0' :: rest => some (0, rest)
  | s => digits? 10 s

def number? (s : Chars) : Option (Int × Chars) := do
  let (n, rest) ←
    match s with
    | '0' :: 'x' :: s => (digits? 16 s).map fun (n, s) => (Int.ofNat n, s)
    | '0' :: 'o' :: s => (digits? 8 s).map fun (n, s) => (Int.ofNat n, s)
    | '0' :: 'b' :: s => (digits? 2 s).map fun (n, s) => (Int.ofNat n, s)
    | '-' :: s => (decimal? s).map fun (n, s) => (-Int.ofNat n, s)
    | '+' :: s => (decimal? s).map fun (n, s) => (Int.ofNat n, s)
    | s => (decimal? s).map fun (n, s) => (Int.ofNat n, s)
  if smallest ≤ n && n ≤ largest then some (n, rest) else none

/-! ## Values -/

mutual

/-- A value, and what follows it. -/
def value? : Nat → Chars → Option (Value × Chars)
  | 0, _ => none
  | depth + 1, s =>
    match s with
    | '[' :: s => (items? depth (skipFiller false s)).map fun (vs, s) => (.list vs, s)
    | '\x7b' :: s =>
      match skipGap s with
      | '\x7d' :: s => some (.table .braces [], s)
      | s => (pairs? depth [] s).map fun (es, s) => (.table .braces es, s)
    | s =>
      match quoted? s with
      | some (t, s) => some (.text (String.ofList t), s)
      | none => (number? s).map fun (n, s) => (.number n, s)

/-- The items of a list up to its bracket; a comma may follow the last one. -/
def items? : Nat → Chars → Option (List Value × Chars)
  | 0, _ => none
  | depth + 1, s =>
    match s with
    | ']' :: s => some ([], s)
    | s => do
      let (v, s) ← value? depth s
      match skipFiller false s with
      | ']' :: s => return ([v], s)
      | ',' :: s =>
        let (vs, s) ← items? depth (skipFiller false s)
        return (v :: vs, s)
      | _ => none

/-- The pairs of a table in braces up to its brace, after those before. -/
def pairs? : Nat → Entries → Chars → Option (Entries × Chars)
  | 0, _, _ => none
  | depth + 1, es, s => do
    let (keys, s) ← dottedKey? depth s
    match s with
    | '=' :: s =>
      let (v, s) ← value? depth (skipGap s)
      let es ← es.assign keys v
      match skipGap s with
      | '\x7d' :: s => return (es, s)
      | ',' :: s => pairs? depth es s
      | _ => none
    | _ => none

end

/-! ## Lines -/

/-- Reads line after line; `path` leads to the table opened last. -/
def lines? : Nat → List String → Entries → Chars → Option Entries
  | 0, _, _, _ => none
  | depth + 1, path, es, s =>
    match skipGap s with
    | [] => some es
    | '#' :: s => do lines? depth path es (← lineEnd? ('#' :: s))
    | '\n' :: s => lines? depth path es s
    | '\r' :: '\n' :: s => lines? depth path es s
    | '[' :: s => do
      let (keys, s) ← dottedKey? depth s
      match s with
      | ']' :: s =>
        let es ← es.openTable keys
        lines? depth keys es (← lineEnd? s)
      | _ => none
    | s => do
      let (keys, s) ← dottedKey? depth s
      match s with
      | '=' :: s =>
        let (v, s) ← value? depth (skipGap s)
        let es ← es.within path (Entries.assign keys v)
        lines? depth path es (← lineEnd? s)
      | _ => none

/-- Reads a document: what its outermost table holds. -/
def parse? (text : String) : Option Entries :=
  let s := text.toList
  let s := if s.head? = some '\ufeff' then s.drop 1 else s
  lines? (s.length + 1) [] [] s

end Stairway.Toml
