/-
One instruction: fetch, decode, execute. A byte that stands for no instruction halts
the machine with a fault and is not counted; a halted machine does nothing.
-/

import Cpu6502.Machine

namespace Cpu6502

variable {σ : Type u} [Bus σ]

/-- Carries out an instruction whose operand starts at the program counter. -/
@[specialize] def Instruction.execute (instruction : Instruction) (registers : Registers) (bus : σ) :
    Registers × σ :=
  match instruction.mnemonic with
  | .lda =>
      let (address, bus) := instruction.mode.resolve registers bus
      let (value, bus) := Bus.read bus address
      ((registers.advance instruction.mode.operandBytes).loadA value, bus)
  | .ldx =>
      let (address, bus) := instruction.mode.resolve registers bus
      let (value, bus) := Bus.read bus address
      ((registers.advance instruction.mode.operandBytes).loadX value, bus)
  | .sta =>
      let (address, bus) := instruction.mode.resolve registers bus
      (registers.advance instruction.mode.operandBytes, Bus.write bus address registers.a)
  | .stx =>
      let (address, bus) := instruction.mode.resolve registers bus
      (registers.advance instruction.mode.operandBytes, Bus.write bus address registers.x)
  | .tax => (registers.loadX registers.a, bus)
  | .inx => (registers.loadX (registers.x + 1), bus)
  | .ret => (registers, bus)

/-- Executes the instruction at the program counter and answers the state after it. -/
@[specialize] def Machine.step (machine : Machine σ) : Except Fault RunState × Machine σ :=
  match machine with
  | ⟨registers, .halted, steps, bus, journal⟩ =>
      (.ok .halted, ⟨registers, .halted, steps, bus, journal⟩)
  | ⟨registers, .running, steps, bus, journal⟩ =>
      let address := registers.pc
      let (opcode, bus) := Bus.read bus address
      let registers := registers.advance 1
      match Instruction.decode opcode with
      | none =>
          (.error (.illegalOpcode opcode address),
            ⟨registers, .halted, steps, bus, journal.note (.illegalOpcode opcode address)⟩)
      | some instruction =>
          let steps := steps + 1
          let journal := journal.note (.fetched address opcode instruction)
          let (registers, bus) := instruction.execute registers bus
          if instruction.mnemonic = .ret then
            (.ok .halted,
              ⟨registers, .halted, steps, bus, journal.note (.returned address steps)⟩)
          else (.ok .running, ⟨registers, .running, steps, bus, journal⟩)

@[simp] theorem Machine.step_of_halted {machine : Machine σ} (halted : machine.state = .halted) :
    machine.step = (.ok .halted, machine) := by
  obtain ⟨registers, state, steps, bus, journal⟩ := machine
  cases halted
  rfl

end Cpu6502
