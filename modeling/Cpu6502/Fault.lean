/-
The two ways the machine refuses: a program image that does not fit, and a byte
that stands for no instruction. Each has a sentence for people and a one-line
record of its data.
-/

import Cpu6502.Digits
import Cpu6502.Word

namespace Cpu6502

/-- Why execution stopped short of a return. -/
inductive Fault where
  /-- The byte `opcode` at `address` stands for no instruction. -/
  | illegalOpcode (opcode : Byte) (address : Address)
  deriving DecidableEq

def Fault.message : Fault → String
  | .illegalOpcode opcode address =>
      "illegal opcode 0x" ++ hexByte opcode.toNat ++ " at 0x" ++ hexWord address.toNat

/-- The cause with its data in decimal, on one line. -/
def Fault.detail : Fault → String
  | .illegalOpcode opcode address =>
      "IllegalOpcode \x7b opcode: " ++ Nat.repr opcode.toNat ++ ", pc: " ++ Nat.repr address.toNat
        ++ " \x7d"

inductive LoadError where
  /-- The image has `length` bytes where at most `limit` fit. -/
  | imageTooLarge (length limit : Nat)
  deriving DecidableEq

def LoadError.message : LoadError → String
  | .imageTooLarge length limit =>
      "program image is " ++ Nat.repr length ++ " bytes, the program window holds at most "
        ++ Nat.repr limit

/-- The cause with its data in decimal, on one line. -/
def LoadError.detail : LoadError → String
  | .imageTooLarge length limit =>
      "ImageTooLarge \x7b len: " ++ Nat.repr length ++ ", max: " ++ Nat.repr limit ++ " \x7d"

end Cpu6502
