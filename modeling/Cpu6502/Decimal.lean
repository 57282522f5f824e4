/-
Decimal numerals below a limit, with an optional plus sign. A numeral is read from
the left, so the first character that is no digit or exceeds the limit decides the
error.
-/

namespace Cpu6502

inductive NumeralError where
  | empty
  | invalidDigit
  | tooLarge
  deriving DecidableEq

def NumeralError.message : NumeralError → String
  | .empty => "cannot parse integer from empty string"
  | .invalidDigit => "invalid digit found in string"
  | .tooLarge => "number too large to fit in target type"

def decimalDigit? (letter : Char) : Option Nat :=
  if '0' ≤ letter ∧ letter ≤ '9' then some (letter.toNat - '0'.toNat) else none

/-- Continues a numeral whose digits so far denote `value`. -/
def readDigits (limit value : Nat) : List Char → Except NumeralError Nat
  | [] => .ok value
  | letter :: rest =>
      match decimalDigit? letter with
      | none => .error .invalidDigit
      | some next =>
          if 10 * value + next < limit then readDigits limit (10 * value + next) rest
          else .error .tooLarge

def readNumeral (limit : Nat) : List Char → Except NumeralError Nat
  | [] => .error .empty
  | ['+'] => .error .invalidDigit
  | '+' :: digits => readDigits limit 0 digits
  | digits => readDigits limit 0 digits

theorem readDigits_lt {limit value result : Nat} {text : List Char} (within : value < limit)
    (read : readDigits limit value text = .ok result) : result < limit := by
  induction text generalizing value with
  | nil =>
      cases read
      exact within
  | cons letter rest ih =>
      rw [readDigits] at read
      split at read
      · cases read
      · split at read
        · next bounded => exact ih bounded read
        · cases read

theorem readNumeral_lt {limit result : Nat} {text : List Char} (positive : 0 < limit)
    (read : readNumeral limit text = .ok result) : result < limit := by
  unfold readNumeral at read
  split at read
  · cases read
  · cases read
  · exact readDigits_lt positive read
  · exact readDigits_lt positive read

end Cpu6502
