/-
Effective addresses. The operand starts at the program counter; page-zero arithmetic
wraps within page zero and all other arithmetic within the address space.
-/

import Cpu6502.Bus
import Cpu6502.Instruction
import Cpu6502.Registers

namespace Cpu6502

variable {σ : Type u} [Bus σ]

/-- The address that the operand at the program counter denotes. An implicit operand
has no bytes, and an immediate operand is its own target, so both denote the program
counter. A pointer in page zero is a word like any other: the one at 0x00FF has its
high half at 0x0100. -/
@[specialize] def Mode.resolve (mode : Mode) (registers : Registers) (bus : σ) : Address × σ :=
  match mode with
  | .implicit | .immediate => (registers.pc, bus)
  | .zeroPage =>
      let (operand, bus) := Bus.read bus registers.pc
      (operand.toUInt16, bus)
  | .zeroPageX =>
      let (operand, bus) := Bus.read bus registers.pc
      ((operand + registers.x).toUInt16, bus)
  | .zeroPageY =>
      let (operand, bus) := Bus.read bus registers.pc
      ((operand + registers.y).toUInt16, bus)
  | .absolute => Bus.readWord bus registers.pc
  | .absoluteX =>
      let (base, bus) := Bus.readWord bus registers.pc
      (base + registers.x.toUInt16, bus)
  | .absoluteY =>
      let (base, bus) := Bus.readWord bus registers.pc
      (base + registers.y.toUInt16, bus)
  | .indirectX =>
      let (operand, bus) := Bus.read bus registers.pc
      Bus.readWord bus (operand + registers.x).toUInt16
  | .indirectY =>
      let (operand, bus) := Bus.read bus registers.pc
      let (base, bus) := Bus.readWord bus operand.toUInt16
      (base + registers.y.toUInt16, bus)

end Cpu6502
