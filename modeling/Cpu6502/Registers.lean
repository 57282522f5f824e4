/-
The register file. Loads, transfers and increments leave their result in a
register and record in two flags whether it is zero and whether its top bit is set.
-/

import Cpu6502.Word

namespace Cpu6502

structure Flags where
  negative : Bool := false
  overflow : Bool := false
  breakCommand : Bool := false
  decimal : Bool := false
  interruptDisable : Bool := false
  zero : Bool := false
  carry : Bool := false
  deriving DecidableEq

inductive Flag where
  | negative
  | overflow
  | breakCommand
  | decimal
  | interruptDisable
  | zero
  | carry
  deriving DecidableEq

def Flags.set (flags : Flags) (flag : Flag) (isSet : Bool) : Flags :=
  match flag with
  | .negative => { flags with negative := isSet }
  | .overflow => { flags with overflow := isSet }
  | .breakCommand => { flags with breakCommand := isSet }
  | .decimal => { flags with decimal := isSet }
  | .interruptDisable => { flags with interruptDisable := isSet }
  | .zero => { flags with zero := isSet }
  | .carry => { flags with carry := isSet }

def Flags.setZeroNegative (flags : Flags) (value : Byte) : Flags :=
  { flags with zero := value == 0, negative := 0x80 ≤ value }

/-- The flags packed into a byte, negative at the top; the bit below overflow is always set. -/
def Flags.pack (flags : Flags) : Byte :=
  let bit (isSet : Bool) (weight : Byte) : Byte := if isSet then weight else 0
  0x20 ||| bit flags.negative 0x80 ||| bit flags.overflow 0x40 ||| bit flags.breakCommand 0x10
    ||| bit flags.decimal 0x08 ||| bit flags.interruptDisable 0x04 ||| bit flags.zero 0x02
    ||| bit flags.carry 0x01

/-- Each flag has a bit of its own. -/
theorem Flags.toNat_pack (flags : Flags) :
    flags.pack.toNat =
      0x80 * flags.negative.toNat + 0x40 * flags.overflow.toNat + 0x20
        + 0x10 * flags.breakCommand.toNat + 0x08 * flags.decimal.toNat
        + 0x04 * flags.interruptDisable.toNat + 0x02 * flags.zero.toNat
        + 0x01 * flags.carry.toNat := by
  obtain ⟨negative, overflow, breakCommand, decimal, interruptDisable, zero, carry⟩ := flags
  revert negative overflow breakCommand decimal interruptDisable zero carry
  decide

structure Registers where
  pc : Address := 0
  sp : Byte := 0
  a : Byte := 0
  x : Byte := 0
  y : Byte := 0
  flags : Flags := {}
  deriving DecidableEq

def Registers.atReset (pc : Address) : Registers :=
  { pc := pc }

/-- A register or flag with the value that it is given. -/
inductive Assignment where
  | pc (value : Address)
  | sp (value : Byte)
  | a (value : Byte)
  | x (value : Byte)
  | y (value : Byte)
  | flag (flag : Flag) (isSet : Bool)
  deriving DecidableEq

/-- An assignment leaves all else as it was; assigning a register sets no flag. -/
def Registers.assign (registers : Registers) : Assignment → Registers
  | .pc value => { registers with pc := value }
  | .sp value => { registers with sp := value }
  | .a value => { registers with a := value }
  | .x value => { registers with x := value }
  | .y value => { registers with y := value }
  | .flag flag isSet => { registers with flags := registers.flags.set flag isSet }

def Registers.advance (registers : Registers) (count : Nat) : Registers :=
  { registers with pc := registers.pc + UInt16.ofNat count }

def Registers.setZeroNegative (registers : Registers) (value : Byte) : Registers :=
  { registers with flags := registers.flags.setZeroNegative value }

def Registers.loadA (registers : Registers) (value : Byte) : Registers :=
  { registers with a := value }.setZeroNegative value

def Registers.loadX (registers : Registers) (value : Byte) : Registers :=
  { registers with x := value }.setZeroNegative value

def Registers.status (registers : Registers) : Byte :=
  registers.flags.pack

end Cpu6502
