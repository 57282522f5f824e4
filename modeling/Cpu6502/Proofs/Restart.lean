/-
Starting over. A reset clears the registers and leaves memory as the program left it, so the
program does the same again unless it consumes its own output: it may meet its earlier stores
where it stores before it reads, and nowhere else.
-/

import Cpu6502.Proofs.Footprint
import Cpu6502.Proofs.Step

namespace Cpu6502

/-- What a dialogue reads first is still there for the next one if it is never written, and what
is written is written again. -/
theorem Dialogue.hold_again {α : Type} (dialogue : Dialogue α) (memory : Memory)
    (unconsumed : ∀ address, ReadFirst (dialogue.accesses memory) address →
      ¬ Written (dialogue.accesses memory) address) :
    dialogue.hold (dialogue.hold memory).2 = dialogue.hold memory := by
  have agree : ∀ address, ReadFirst (dialogue.accesses memory) address →
      memory.read address = (dialogue.hold memory).2.read address := by
    intro address first
    exact (dialogue.read_hold_of_not_written memory (unconsumed address first)).symm
  obtain ⟨result, accesses, kept⟩ := dialogue.hold_agree memory (dialogue.hold memory).2 agree
  apply Prod.ext
  · exact result.symm
  · apply Memory.ext
    intro address
    by_cases written : Written (dialogue.accesses memory) address
    · exact (kept address (Or.inr written)).symm
    · rw [accesses] at written
      exact dialogue.read_hold_of_not_written (dialogue.hold memory).2 written

/-- A reset and the run after it. -/
def Processor.resetRun (budget : Nat) : Dialogue (Except Fault RunState × Processor) :=
  Processor.reset.bind fun (_, started) => started.run budget

namespace Machine

theorem reset_run_eq_engage {σ : Type u} [Bus σ] (machine : Machine σ) (budget : Nat) :
    machine.reset.run budget = machine.engage (Processor.resetRun budget) := by
  rw [Processor.resetRun, engage_bind, ← reset_eq_engage, run_eq_engage]

theorem accesses_resetRun (machine : Machine Memory) (budget : Nat) :
    (Processor.resetRun budget).accesses machine.bus =
      .read 0xFFFC (machine.bus.read 0xFFFC) :: .read 0xFFFD (machine.bus.read 0xFFFD) ::
        machine.reset.accesses budget := by
  rw [Processor.resetRun, Dialogue.accesses_bind, accesses_eq]
  rfl

/-- A program that reads first only what it never writes, the reset vector included, does after
another reset all that it did after the first one and leaves the same machine. -/
theorem reset_restarts (machine : Machine Memory) (budget : Nat)
    (unconsumed : ∀ address,
      address = 0xFFFC ∨ address = 0xFFFD ∨ ReadFirst (machine.reset.accesses budget) address →
        ¬ Written (machine.reset.accesses budget) address) :
    let first := machine.reset.run budget
    let second := first.2.reset.run budget
    second.1 = first.1 ∧ second.2.registers = first.2.registers ∧
      second.2.state = first.2.state ∧ second.2.steps = first.2.steps ∧
      second.2.bus = first.2.bus := by
  intro first second
  have ran : first = machine.engage (Processor.resetRun budget) :=
    machine.reset_run_eq_engage budget
  have reran : second = first.2.engage (Processor.resetRun budget) :=
    first.2.reset_run_eq_engage budget
  have again : (Processor.resetRun budget).hold first.2.bus =
      (Processor.resetRun budget).hold machine.bus := by
    rw [ran]
    apply Dialogue.hold_again
    intro address held
    rw [accesses_resetRun, readFirst_read_cons, readFirst_read_cons] at held
    rw [accesses_resetRun, written_read_cons, written_read_cons]
    exact unconsumed address (held.imp Eq.symm (Or.imp_left Eq.symm))
  rw [reran, engage, again, ran]
  exact ⟨rfl, rfl, rfl, rfl, rfl⟩

private theorem run_increment_store_load {machine : Machine Memory}
    (registers : machine.registers = Registers.atReset 0) (state : machine.state = .running)
    (code : machine.bus.read 0 = 0xE8 ∧ machine.bus.read 1 = 0x86 ∧ machine.bus.read 2 = 0x10 ∧
      machine.bus.read 3 = 0xA5 ∧ machine.bus.read 4 = 0x10 ∧ machine.bus.read 5 = 0x00) :
    machine.accesses 4 =
        [.read 0 0xE8, .read 1 0x86, .read 2 0x10, .write 0x10 1, .read 3 0xA5, .read 4 0x10,
          .read 0x10 1, .read 5 0] ∧
      (machine.run 4).2.bus.read 0x10 = 1 := by
  obtain ⟨_, _, steps, memory, journal⟩ := machine
  subst registers state
  rw [accesses_eq]
  simp [code, run, step, processor, Processor.run, Processor.step, Dialogue.accesses,
    Dialogue.bind, Instruction.dialogue, Mode.dialogue, Instruction.decode, Instruction.execute,
    Mode.resolve, Bus.read, Bus.write, Memory.read_write, Registers.atReset, Registers.loadA,
    Registers.loadX, Registers.setZeroNegative, Registers.advance, Mode.operandBytes]

/-- The program stores where it reads only afterwards, so the second run does not mind what the
first has left there. -/
theorem reset_restarts_after_store :
    let program : Memory :=
      ((((Memory.zero.write 0 0xE8).write 1 0x86).write 2 0x10).write 3 0xA5).write 4 0x10
    let machine : Machine Memory := ⟨{ x := 7 }, .halted, 5, program.write 0x10 9, .silent⟩
    (∀ address,
      address = 0xFFFC ∨ address = 0xFFFD ∨ ReadFirst (machine.reset.accesses 4) address →
        ¬ Written (machine.reset.accesses 4) address) ∧
      machine.bus.read 0x10 = 9 ∧ (machine.reset.run 4).2.bus.read 0x10 = 1 ∧
      ((machine.reset.run 4).2.reset.run 4).2.bus = (machine.reset.run 4).2.bus := by
  intro program machine
  have before : machine.bus.read 0x10 = 9 := Memory.read_write_same _ _ _
  have registers : machine.reset.registers = Registers.atReset 0 := by
    simp [machine, program, reset, Bus.readWord, Memory.read_write, resetVector,
      Address.ofBytes]
  obtain ⟨accesses, stored⟩ := run_increment_store_load registers rfl
    (by simp [machine, program, reset, Bus.readWord, Memory.read_write])
  have unconsumed : ∀ address,
      address = 0xFFFC ∨ address = 0xFFFD ∨ ReadFirst (machine.reset.accesses 4) address →
        ¬ Written (machine.reset.accesses 4) address := by
    intro address held written
    rw [accesses] at held written
    have only : 0x10 = address := by
      simpa [written_read_cons, written_write_cons, not_written_nil] using written
    subst only
    simp [readFirst_read_cons, readFirst_write_cons] at held
  obtain ⟨_, _, _, _, bus⟩ := reset_restarts machine 4 unconsumed
  exact ⟨unconsumed, before, stored, bus⟩

end Machine

end Cpu6502
