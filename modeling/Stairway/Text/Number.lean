/-!
# Whole numbers as text

Decimal digits, with a plus sign in front if one likes, of a number up to a largest one. Of two
faults the one further left counts.
-/

namespace Stairway.Text

inductive NumberFault where
  | empty
  | invalidDigit
  | tooLarge
  deriving DecidableEq, Repr

def NumberFault.message : NumberFault → String
  | empty => "cannot parse integer from empty string"
  | invalidDigit => "invalid digit found in string"
  | tooLarge => "number too large to fit in target type"

/-- Goes on reading a number of which `n` has been read. -/
def readDigits (largest : Nat) (n : Nat) : List Char → Except NumberFault Nat
  | [] => .ok n
  | c :: rest =>
    if !c.isDigit then .error .invalidDigit
    else
      let n := n * 10 + (c.toNat - '0'.toNat)
      if largest < n then .error .tooLarge else readDigits largest n rest

/-- Reads a number that is at most `largest`. -/
def readNumber (largest : Nat) (s : List Char) : Except NumberFault Nat :=
  match s with
  | [] => .error .empty
  | ['+'] => .error .invalidDigit
  | '+' :: digits => readDigits largest 0 digits
  | digits => readDigits largest 0 digits

def readNumber? (largest : Nat) (s : String) : Option Nat := (readNumber largest s.toList).toOption

end Stairway.Text
