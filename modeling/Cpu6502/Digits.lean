/-
Numerals of a fixed width: exactly so many digits, leading zeros included, so columns
of them line up and the most significant digit stands first.
-/

namespace Cpu6502

/-- Digits above nine are upper-case letters. -/
def digit (value : Nat) : Char :=
  if value < 10 then Char.ofNat ('0'.toNat + value) else Char.ofNat ('A'.toNat + (value - 10))

/-- The `width` lowest digits of a number, the most significant first. -/
def digits (base : Nat) : Nat → Nat → List Char
  | 0, _ => []
  | width + 1, value => digits base width (value / base) ++ [digit (value % base)]

@[simp] theorem length_digits (base width value : Nat) :
    (digits base width value).length = width := by
  induction width generalizing value with
  | zero => rfl
  | succ width ih => simp only [digits, List.length_append, ih, List.length_singleton]

/-- Two digits, as in `0F`. -/
def hexByte (value : Nat) : String :=
  String.ofList (digits 16 2 value)

/-- Four digits, as in `00FF`. -/
def hexWord (value : Nat) : String :=
  String.ofList (digits 16 4 value)

/-- Eight bits, as in `00100000`. -/
def binaryByte (value : Nat) : String :=
  String.ofList (digits 2 8 value)

end Cpu6502
