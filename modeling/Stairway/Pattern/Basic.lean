import Stairway.Text.CharClass

/-!
# Patterns

A pattern describes texts: characters of a set, conditions on a place between two characters, and
sequence, choice and repetition of patterns. `Pattern.isMatch` says whether some part of a text
fits. Matching goes over places of the text, from the places where a part may begin to the places
where it may end; a repetition adds places until nothing new comes, which is after as many rounds as
the text has places at the latest.
-/

namespace Stairway

open Text

/-- A set of characters. -/
inductive CharSet where
  | one (c : Char)
  | range (low high : Char)
  | digit
  | blank
  | word
  | union (a b : CharSet)
  | inter (a b : CharSet)
  | diff (a b : CharSet)
  | symDiff (a b : CharSet)
  | complement (a : CharSet)
  | nothing
  /-- The characters that are in the set in some spelling as capital or small letter. -/
  | anyCase (a : CharSet)

namespace CharSet

def has (c : Char) : CharSet → Bool
  | one d => c == d
  | range low high => low ≤ c && c ≤ high
  | digit => digits.has c
  | blank => blanks.has c
  | word => wordChars.has c
  | union a b => a.has c || b.has c
  | inter a b => a.has c && b.has c
  | diff a b => a.has c && !b.has c
  | symDiff a b => a.has c != b.has c
  | complement a => !a.has c
  | nothing => false
  | anyCase a => (caseVariants c).any fun d => a.has d

def ofList : List Char → CharSet
  | [] => nothing
  | c :: cs => union (one c) (ofList cs)

/-- How many steps of an automaton it takes to tell the members of a set, by the ranges that make it
up. -/
def steps : CharSet → Nat
  | one _ | range _ _ | nothing => 1
  | digit => 2 * digits.size
  | blank => 2 * blanks.size
  | word => 2 * wordChars.size
  | union a b | inter a b | diff a b | symDiff a b => a.steps + b.steps
  | complement a => a.steps
  | anyCase a => 2 * a.steps

end CharSet

/-- A condition on a place in a text. -/
inductive Anchor where
  | textStart
  | textEnd
  | lineStart (crlf : Bool)
  | lineEnd (crlf : Bool)
  | wordBoundary (ascii : Bool)
  | notWordBoundary (ascii : Bool)
  | wordStart (ascii : Bool)
  | wordEnd (ascii : Bool)
  /-- No word character before the place. -/
  | wordStartHalf (ascii : Bool)
  /-- No word character after the place. -/
  | wordEndHalf (ascii : Bool)

/-- A place between two characters: the one before it and the one after it. -/
structure Place where
  before : Option Char
  after : Option Char

def isWordChar (ascii : Bool) (c : Char) : Bool :=
  if ascii then c.isAlphanum || c == '_' else wordChars.has c

def Anchor.holds (a : Anchor) (p : Place) : Bool :=
  let word (ascii : Bool) (c : Option Char) : Bool := c.any (isWordChar ascii)
  match a with
  | textStart => p.before.isNone
  | textEnd => p.after.isNone
  | lineStart crlf =>
    p.before.isNone || p.before == some '\n'
      || (crlf && p.before == some '\r' && p.after != some '\n')
  | lineEnd crlf =>
    p.after.isNone
      || (if crlf then p.after == some '\r' || (p.after == some '\n' && p.before != some '\r')
          else p.after == some '\n')
  | wordBoundary ascii => word ascii p.before != word ascii p.after
  | notWordBoundary ascii => word ascii p.before == word ascii p.after
  | wordStart ascii => !word ascii p.before && word ascii p.after
  | wordEnd ascii => word ascii p.before && !word ascii p.after
  | wordStartHalf ascii => !word ascii p.before
  | wordEndHalf ascii => !word ascii p.after

inductive Pattern where
  /-- Fits the empty text. -/
  | empty
  | char (s : CharSet)
  | anchor (a : Anchor)
  | seq (a b : Pattern)
  | alt (a b : Pattern)
  /-- At least `least` times, and at most `most` times if that is given. -/
  | rep (least : Nat) (most : Option Nat) (p : Pattern)

namespace Pattern

/-- How many steps the automaton of a pattern has, repetitions written out. -/
def steps : Pattern → Nat
  | empty => 1
  | char s => s.steps
  | anchor _ => 1
  | seq a b => a.steps + b.steps
  | alt a b => a.steps + b.steps + 2
  | rep least most p => least * p.steps + most.elim (p.steps + 1) fun m =>
    (m - least) * (p.steps + 1) + 1

/-- A pattern may have as many steps as go into ten megabytes, at 32 bytes each. -/
def stepLimit : Nat := 10 * 1024 * 1024 / 32

/-- Applies `f` at most `n` times, and no longer than it changes something. -/
def iterate (f : List Nat → List Nat) : Nat → List Nat → List Nat
  | 0, s => s
  | n + 1, s => if f s == s || s.isEmpty then s else iterate f n (f s)

/-- Both lists, each place once. -/
def merge (s t : List Nat) : List Nat := s ++ t.filter (!s.contains ·)

def placeAt (text : Array Char) (i : Nat) : Place :=
  ⟨if i = 0 then none else text[i - 1]?, text[i]?⟩

/-- The places where a part that fits `p` and begins at one of `starts` may end. -/
def ends (text : Array Char) (p : Pattern) (starts : List Nat) : List Nat :=
  match p with
  | empty => starts
  | char s => starts.filterMap fun i => if text[i]?.any s.has then some (i + 1) else none
  | anchor a => starts.filter fun i => a.holds (placeAt text i)
  | seq a b => b.ends text (a.ends text starts)
  | alt a b => merge (a.ends text starts) (b.ends text starts)
  | rep least most p =>
    let required := iterate (p.ends text) least starts
    let rounds := most.elim (text.size + 1) fun m => min (m - least) (text.size + 1)
    iterate (fun s => merge s (p.ends text s)) rounds required

/-- Whether some part of the text fits the pattern. -/
def isMatch (p : Pattern) (text : String) : Bool :=
  let chars := text.toList.toArray
  !(p.ends chars (List.range (chars.size + 1))).isEmpty

end Pattern

end Stairway
