/-!
# Values of a TOML document

Texts, whole numbers, lists and tables: the kinds of values that settings are made of. A table
remembers how it came about, for that decides what may still be added to it: a table behind a header
may not be opened twice, one made by dotted keys may not be opened at all, and one written in braces
is complete.

`assign` puts a value where dotted keys lead, `openTable` makes the table of a header, and `within`
works on the table that a header has made. Each fails where the document would say something twice.
-/

namespace Stairway.Toml

inductive Origin where
  /-- It has a header of its own. -/
  | header
  /-- The header of a table inside it names it. -/
  | implied
  | dotted
  | braces
  deriving DecidableEq, Repr

inductive Value where
  | text (s : String)
  | number (n : Int)
  | list (items : List Value)
  | table (origin : Origin) (entries : List (String × Value))

/-- What a table holds, in the order in which it was written. -/
abbrev Entries := List (String × Value)

namespace Entries

def replace (k : String) (v : Value) (es : Entries) : Entries :=
  es.map fun (name, old) => if name = k then (name, v) else (name, old)

def assign : List String → Value → Entries → Option Entries
  | [], _, _ => none
  | [k], v, es => if (es.lookup k).isSome then none else some (es ++ [(k, v)])
  | k :: ks, v, es =>
    match es.lookup k with
    | none => (assign ks v []).map fun sub => es ++ [(k, .table .dotted sub)]
    | some (.table .dotted sub) => (assign ks v sub).map fun sub =>
      replace k (.table .dotted sub) es
    | some _ => none

def openTable : List String → Entries → Option Entries
  | [], _ => none
  | [k], es =>
    match es.lookup k with
    | none => some (es ++ [(k, .table .header [])])
    | some (.table .implied sub) => some (replace k (.table .header sub) es)
    | some _ => none
  | k :: ks, es =>
    match es.lookup k with
    | none => (openTable ks []).map fun sub => es ++ [(k, .table .implied sub)]
    | some (.table .braces _) => none
    | some (.table origin sub) => (openTable ks sub).map fun sub => replace k (.table origin sub) es
    | some _ => none

def within : List String → (Entries → Option Entries) → Entries → Option Entries
  | [], f, es => f es
  | k :: ks, f, es =>
    match es.lookup k with
    | some (.table origin sub) => (within ks f sub).map fun sub => replace k (.table origin sub) es
    | _ => none

end Entries

end Stairway.Toml
