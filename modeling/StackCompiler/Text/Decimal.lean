/-!
# Decimal numbers of 64 bits

Reads a decimal number, with or without a sign, into the range of a signed
64-bit word. Digits are read from the left, and the first thing that is wrong
is the one reported.
-/

namespace StackCompiler.Text.Decimal

/-- Why a text is not a number of 64 bits. -/
inductive Fault where
  | empty
  | invalidDigit
  | tooLarge
  | tooSmall
  deriving DecidableEq, Repr

/-- The wording of a fault. -/
def Fault.message : Fault → String
  | .empty => "cannot parse integer from empty string"
  | .invalidDigit => "invalid digit found in string"
  | .tooLarge => "number too large to fit in target type"
  | .tooSmall => "number too small to fit in target type"

/-- The value of a decimal digit. -/
def digit? (char : Char) : Option Nat :=
  if char.isDigit then some (char.toNat - '0'.toNat) else none

/-- Appends decimal digits to `value` as long as the result stays within `limit`. -/
def appendWithin (limit : Nat) (beyond : Fault) (value : Nat) :
    List Char → Except Fault Nat
  | [] => .ok value
  | char :: rest =>
    match digit? char with
    | none => .error .invalidDigit
    | some digit =>
      if value * 10 + digit ≤ limit then
        appendWithin limit beyond (value * 10 + digit) rest
      else .error beyond

/-- The greatest signed number of 64 bits. -/
def maxWord : Nat := 9223372036854775807

/-- Reads an optional sign and decimal digits as a signed number of 64 bits. -/
def readWord : List Char → Except Fault Int
  | [] => .error .empty
  | ['+'] => .error .invalidDigit
  | ['-'] => .error .invalidDigit
  | '+' :: digits => (appendWithin maxWord .tooLarge 0 digits).map Int.ofNat
  | '-' :: digits =>
      (appendWithin (maxWord + 1) .tooSmall 0 digits).map fun value => -Int.ofNat value
  | digits => (appendWithin maxWord .tooLarge 0 digits).map Int.ofNat

end StackCompiler.Text.Decimal
