import Stairway.Url.Percent

/-!
# Texts in a TOML document

Four kinds of quotes: double quotes with escapes, single quotes without, and both tripled, which may
go over several lines. In a tripled text the line end right after the opening is dropped, a line end
is one character however it is written, and up to two quotes may stand before the closing ones.
-/

namespace Stairway.Toml

abbrev Chars := List Char

/-- A blank within a line. -/
def isGap (c : Char) : Bool := c == ' ' || c == '\t'

/-- A character that may stand in a line as it is. -/
def isPlain (c : Char) : Bool := c == '\t' || (0x20 ≤ c.toNat && c.toNat != 0x7F)

/-- The number that hexadecimal digits spell. -/
def valueOf (digits : List Nat) : Nat := digits.foldl (fun m d => m * 16 + d) 0

/-- The character with the code point that the first `n` hexadecimal digits give. -/
def codePoint? (n : Nat) (s : Chars) : Option (Char × Chars) :=
  match (s.take n).mapM Url.Percent.hexValue? with
  | none => none
  | some digits =>
    if digits.length = n && (valueOf digits).isValidChar then
      some (Char.ofNat (valueOf digits), s.drop n)
    else none

/-- The character that the text after a backslash stands for. -/
def escape? : Chars → Option (Char × Chars)
  | 'b' :: rest => some ('\x08', rest)
  | 't' :: rest => some ('\t', rest)
  | 'n' :: rest => some ('\n', rest)
  | 'f' :: rest => some ('\x0c', rest)
  | 'r' :: rest => some ('\r', rest)
  | '"' :: rest => some ('"', rest)
  | '\\' :: rest => some ('\\', rest)
  | 'u' :: rest => codePoint? 4 rest
  | 'U' :: rest => codePoint? 8 rest
  | _ => none

theorem codePoint?_length {n : Nat} {s : Chars} {r : Char × Chars} (h : codePoint? n s = some r) :
    r.2.length ≤ s.length := by
  unfold codePoint? at h
  split at h
  · simp at h
  · split at h
    · cases h
      simp
    · simp at h

theorem escape?_length {s : Chars} {r : Char × Chars} (h : escape? s = some r) :
    r.2.length ≤ s.length := by
  unfold escape? at h
  split at h
  case h_8 rest =>
    have := codePoint?_length h
    exact Nat.le_succ_of_le this
  case h_9 rest =>
    have := codePoint?_length h
    exact Nat.le_succ_of_le this
  case h_10 => simp at h
  all_goals
    cases h
    exact Nat.le_succ _

/-! ## Texts in one line -/

/-- The rest of a text in double quotes, and what follows it. -/
def basic (s : Chars) : Option (Chars × Chars) :=
  match s with
  | [] => none
  | c :: rest =>
    if c == '"' then some ([], rest)
    else if c == '\\' then
      match h : escape? rest with
      | some (d, rest') =>
        have : rest'.length ≤ rest.length := escape?_length h
        (basic rest').map fun (t, after) => (d :: t, after)
      | none => none
    else if isPlain c then (basic rest).map fun (t, after) => (c :: t, after)
    else none
termination_by s.length

/-- The rest of a text in single quotes, and what follows it. -/
def literal : Chars → Option (Chars × Chars)
  | [] => none
  | c :: rest =>
    if c == '\'' then some ([], rest)
    else if isPlain c then (literal rest).map fun (t, after) => (c :: t, after)
    else none

/-! ## Texts over several lines -/

/-- Blanks and line ends at the front, dropped. -/
def skipBlankLines : Chars → Chars
  | '\r' :: '\n' :: rest => skipBlankLines rest
  | c :: rest => if isGap c || c == '\n' then skipBlankLines rest else c :: rest
  | [] => []

theorem skipBlankLines_length (s : Chars) : (skipBlankLines s).length ≤ s.length := by
  fun_induction skipBlankLines s <;> simp <;> omega

/-- What follows a line end. -/
def newline? : Chars → Option Chars
  | '\n' :: rest => some rest
  | '\r' :: '\n' :: rest => some rest
  | _ => none

theorem newline?_length {s r : Chars} (h : newline? s = some r) : r.length < s.length := by
  unfold newline? at h
  split at h
  · cases h
    exact Nat.lt_succ_self _
  · cases h
    exact Nat.lt_succ_of_lt (Nat.lt_succ_self _)
  · simp at h

/-- What follows a backslash at the end of a line: the text goes on at the next thing that is no
blank. -/
def foldedLine? (s : Chars) : Option Chars := (newline? (s.dropWhile isGap)).map skipBlankLines

theorem foldedLine?_length {s r : Chars} (h : foldedLine? s = some r) : r.length ≤ s.length := by
  simp only [foldedLine?, Option.map_eq_some_iff] at h
  obtain ⟨t, ht, rfl⟩ := h
  have h₁ := newline?_length ht
  have h₂ := skipBlankLines_length t
  have h₃ : (s.dropWhile isGap).length ≤ s.length := (List.dropWhile_sublist _).length_le
  omega

/-- The end of a tripled text, if the quotes at the front are that: those that still belong to it,
and what follows. -/
def closing? (quote : Char) (s : Chars) : Option (Chars × Chars) :=
  let run := (s.takeWhile (· == quote)).length
  if run < 3 then none else some (List.replicate (min run 5 - 3) quote, s.drop (min run 5))

/-- The rest of a text in tripled double quotes, and what follows it. -/
def multiBasic (s : Chars) : Option (Chars × Chars) :=
  match s with
  | [] => none
  | c :: rest =>
    match closing? '"' (c :: rest) with
    | some r => some r
    | none =>
      match hn : newline? (c :: rest) with
      | some rest' =>
        have : rest'.length ≤ rest.length := Nat.le_of_lt_succ (newline?_length hn)
        (multiBasic rest').map fun (t, after) => ('\n' :: t, after)
      | none =>
        if c == '\\' then
          match hf : foldedLine? rest with
          | some rest' =>
            have := foldedLine?_length hf
            multiBasic rest'
          | none =>
            match he : escape? rest with
            | some (d, rest') =>
              have : rest'.length ≤ rest.length := escape?_length he
              (multiBasic rest').map fun (t, after) => (d :: t, after)
            | none => none
        else if isPlain c then (multiBasic rest).map fun (t, after) => (c :: t, after)
        else none
termination_by s.length

/-- The rest of a text in tripled single quotes, and what follows it. -/
def multiLiteral (s : Chars) : Option (Chars × Chars) :=
  match s with
  | [] => none
  | c :: rest =>
    match closing? '\'' (c :: rest) with
    | some r => some r
    | none =>
      match c, rest with
      | '\r', '\n' :: rest' => (multiLiteral rest').map fun (t, after) => ('\n' :: t, after)
      | c, rest =>
        if isPlain c || c == '\n' then (multiLiteral rest).map fun (t, after) =>
          (c :: t, after) else none
termination_by s.length

/-- The text after the opening of a tripled one, without a line end right there. -/
def afterOpening (s : Chars) : Chars := (newline? s).getD s

/-- A text in any quotes, and what follows it. -/
def quoted? : Chars → Option (Chars × Chars)
  | '"' :: '"' :: '"' :: rest => multiBasic (afterOpening rest)
  | '\'' :: '\'' :: '\'' :: rest => multiLiteral (afterOpening rest)
  | '"' :: rest => basic rest
  | '\'' :: rest => literal rest
  | _ => none

end Stairway.Toml
