import Stairway.Command.Layer
import Stairway.Files.Tree
import Stairway.Toml.Parser

/-!
# The settings file

A TOML document with the migrations path and the timeout outside, and the sections `database` and
`retry`. A key that no setting has is refused, and so is a value of the wrong kind or beyond its
range. A section may also be a list of its values in order.
-/

namespace Stairway.Command

open Toml

namespace Layer

def text? : Value → Option String
  | .text s => some s
  | _ => none

/-- A whole number up to a largest one. -/
def numberUpTo (largest : Nat) : Value → Option Nat
  | .number n => if 0 ≤ n && n ≤ (largest : Int) then some n.toNat else none
  | _ => none

/-- What a setting does with its value. -/
abbrev Setter := Layer → Value → Option Layer

/-- The settings of the section on the database, in order. -/
def databaseKeys : List (String × Setter) := [
  ("host", fun l v => (text? v).map fun s => { l with host := some s }),
  ("port", fun l v => (numberUpTo 0xFFFF v).map fun n => { l with port := some n }),
  ("user", fun l v => (text? v).map fun s => { l with user := some s }),
  ("password", fun l v => (text? v).map fun s => { l with password := some s }),
  ("name", fun l v => (text? v).map fun s => { l with database := some s }),
  ("sslmode", fun l v => (text? v).map fun s => { l with sslMode := some s })]

/-- The settings of the section on retrying, in order. -/
def retryKeys : List (String × Setter) := [
  ("attempts", fun l v => (numberUpTo 0xFFFFFFFF v).map fun n => { l with attempts := some n }),
  ("initial_delay_ms", fun l v =>
    (numberUpTo 0xFFFFFFFFFFFFFFFF v).map fun n => { l with initialDelayMillis := some n }),
  ("limit_delay_ms", fun l v =>
    (numberUpTo 0xFFFFFFFFFFFFFFFF v).map fun n => { l with limitDelayMillis := some n })]

/-- Takes in the pairs of a table, each of which must be one of the keys. -/
def takePairs (keys : List (String × Setter)) (l : Layer) (es : Entries) : Option Layer :=
  es.foldlM (fun l (k, v) => (keys.lookup k).bind fun set => set l v) l

/-- Takes in a section, which is a table or a list of at least as many values as there are keys. -/
def takeSection (keys : List (String × Setter)) : Setter := fun l v =>
  match v with
  | .table _ es => takePairs keys l es
  | .list vs =>
    if vs.length < keys.length then none
    else (keys.zip vs).foldlM (fun l (key, v) => key.2 l v) l
  | _ => none

def outerKeys : List (String × Setter) := [
  ("migrations_path", fun l v => (text? v).map fun s => { l with migrationsPath := some s }),
  ("timeout_secs", fun l v => (numberUpTo 0xFFFFFFFFFFFFFFFF v).map fun n =>
    { l with timeoutSeconds := some n }),
  ("database", takeSection databaseKeys),
  ("retry", takeSection retryKeys)]

/-- What a document says. -/
def parse? (text : String) : Option Layer := do takePairs outerKeys {} (← Toml.parse? text)

end Layer

/-- Why a settings file is of no use. -/
inductive FileError where
  | unreadable (path : String) (cause : IoError)
  | invalid (path : String)
  deriving DecidableEq, Repr

namespace FileError

def message : FileError → String
  | unreadable path _ => "Failed to read config file " ++ path
  | invalid path => "Invalid config file " ++ path

/-- What is said of the cause. -/
def cause : FileError → String
  | unreadable _ cause => cause.message
  | invalid _ => "TOML parse error"

end FileError

/-- Reads the settings file at a path. -/
def Layer.load (t : Files.Tree) (path : String) : Except FileError Layer :=
  match t.readText path with
  | .error cause => .error (.unreadable path cause)
  | .ok text =>
    match Layer.parse? text with
    | some l => .ok l
    | none => .error (.invalid path)

end Stairway.Command
