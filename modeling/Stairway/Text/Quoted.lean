import Stairway.Text.Glyphs

/-!
# Quoted text and records

Text as it is shown to a person who debugs: between double quotes, with a backslash before what
would be mistaken for something else, and code points in hexadecimal for what cannot be seen. A path
is quoted like text, and its single quotes are escaped too. `record` writes a structure by its name
and fields.
-/

namespace Stairway.Text

/-- How one character is written between the quotes; `single` also escapes the single quote. -/
def escapeChar (single : Bool) (c : Char) : List Char :=
  match c with
  | '\x00' => ['\\', '0']
  | '\t' => ['\\', 't']
  | '\n' => ['\\', 'n']
  | '\r' => ['\\', 'r']
  | '"' => ['\\', '"']
  | '\\' => ['\\', '\\']
  | '\'' => if single then ['\\', '\''] else ['\'']
  | c =>
    if isShown c then [c]
    else "\\u\x7b".toList ++ Nat.toDigits 16 c.toNat ++ "\x7d".toList

def quoteWith (single : Bool) (s : String) : String :=
  String.ofList ('"' :: s.toList.flatMap (escapeChar single) ++ ['"'])

/-- Text between double quotes. -/
def quoted (s : String) : String := quoteWith false s

/-- A path between double quotes. -/
def quotedPath (s : String) : String := quoteWith true s

def truth (b : Bool) : String := if b then "true" else "false"

/-- A structure: its name and its fields in order; an open one has more fields than it shows. -/
def record (name : String) (fields : List (String × String)) (isOpen : Bool) : String :=
  let shown := fields.map fun (k, v) => k ++ ": " ++ v
  let shown := if isOpen then shown ++ [".."] else shown
  if shown.isEmpty then name
  else name ++ " \x7b " ++ String.intercalate ", " shown ++ " \x7d"

/-- A dictionary. -/
def dictionary (entries : List (String × String)) : String :=
  "\x7b" ++ String.intercalate ", " (entries.map fun (k, v) => k ++ ": " ++ v) ++ "\x7d"

end Stairway.Text
