/-
Where control goes. The way of a machine through its program depends on the opcodes that it
meets and on nothing else: two machines may differ in operands, registers, flags and data, and in
what they store and where, and as long as no store goes over an opcode they stay abreast.
-/

import Cpu6502.Proofs.Footprint
import Cpu6502.Proofs.History
import Cpu6502.Proofs.Step

namespace Cpu6502

theorem written_append {first second : List Access} {address : Address} :
    Written (first ++ second) address ↔ Written first address ∨ Written second address := by
  simp only [Written, List.mem_append, exists_or]

namespace Machine

section

variable {σ : Type u}

/-- The address from which the next step fetches an opcode. -/
def fetch? (machine : Machine σ) : Option Address :=
  match machine.state with
  | .halted => none
  | .running => some machine.registers.pc

variable [Bus σ]

/-- The addresses from which the first `count` steps fetch opcodes, in their order. -/
def fetches : Nat → Machine σ → List Address
  | 0, _ => []
  | count + 1, machine => machine.fetch?.toList ++ fetches count machine.step.2

theorem mem_fetches_succ {machine : Machine σ} {count : Nat} {address : Address} :
    address ∈ machine.fetches (count + 1) ↔
      address ∈ machine.fetch? ∨ address ∈ machine.step.2.fetches count := by
  rw [fetches, List.mem_append, Option.mem_toList, Option.mem_def]

theorem fetches_of_halted {machine : Machine σ} (halted : machine.state = .halted)
    (count : Nat) : machine.fetches count = [] := by
  induction count with
  | zero => rfl
  | succ count ih =>
      rw [fetches, fetch?, halted, step_of_halted halted]
      exact ih

theorem accesses_succ_of_running {machine : Machine σ}
    (goes : machine.step.2.state = .running) (budget : Nat) :
    machine.accesses (budget + 1) =
      machine.processor.step.accesses machine.bus ++ machine.step.2.accesses budget := by
  have answered : (machine.engage machine.processor.step).1 = .ok .running := by
    rw [← step_eq_engage]
    exact (step_eq_running_iff machine).mpr goes
  rw [accesses_eq, accesses_eq, Processor.run, Dialogue.accesses_bind, step_eq_engage machine]
  change (machine.processor.step.hold machine.bus).1.1 = _ at answered
  rcases held : machine.processor.step.hold machine.bus with ⟨⟨answer, next⟩, bus⟩
  rw [held] at answered
  cases answered
  rw [engage, held]
  rfl

/-- What a run of several steps does not write is written neither by the first step nor later. -/
theorem not_written_of_accesses_succ {machine : Machine σ} {budget : Nat} {address : Address}
    (goes : machine.step.2.state = .running)
    (spared : ¬ Written (machine.accesses (budget + 1)) address) :
    ¬ Written (machine.processor.step.accesses machine.bus) address ∧
      ¬ Written (machine.step.2.accesses budget) address := by
  rwa [accesses_succ_of_running goes, written_append, not_or] at spared

end

theorem read_step_of_not_written {machine : Machine Memory} {address : Address}
    (unwritten : ¬ Written (machine.processor.step.accesses machine.bus) address) :
    machine.step.2.bus.read address = machine.bus.read address := by
  rw [step_eq_engage]
  exact machine.processor.step.read_hold_of_not_written machine.bus unwritten

/-- Two machines that stand at one address and are both running or both halted. -/
structure Abreast (left right : Machine Memory) : Prop where
  state : left.state = right.state
  pc : left.registers.pc = right.registers.pc

namespace Abreast

variable {left right : Machine Memory}

theorem fetch?_eq (abreast : Abreast left right) : left.fetch? = right.fetch? := by
  rw [fetch?, fetch?, abreast.state, abreast.pc]

/-- Only the opcode decides how a step goes on. -/
theorem step (abreast : Abreast left right)
    (same : ∀ address ∈ left.fetch?, left.bus.read address = right.bus.read address) :
    left.step.1 = right.step.1 ∧ Abreast left.step.2 right.step.2 ∧ left.next? = right.next? := by
  cases state : left.state with
  | halted =>
      have alike : right.state = .halted := abreast.state.symm.trans state
      rw [step_of_halted state, step_of_halted alike, next?, next?, state, alike]
      exact ⟨rfl, abreast, rfl⟩
  | running =>
      have alike : right.state = .running := abreast.state.symm.trans state
      have fetched : left.registers.pc ∈ left.fetch? := by
        rw [fetch?, state]
        rfl
      have opcodes : right.opcode = left.opcode := by
        rw [opcode, opcode, ← abreast.pc]
        exact (same _ fetched).symm
      have next : left.next? = right.next? := by
        rw [next?_of_running state, next?_of_running alike, opcodes]
      cases decoded : Instruction.decode left.opcode with
      | none =>
          rw [step_of_undecoded state decoded,
            step_of_undecoded alike (by rw [opcodes, decoded]), opcodes, abreast.pc]
          exact ⟨rfl, ⟨rfl, congrArg (· + _) abreast.pc⟩, next⟩
      | some instruction =>
          rw [step_of_decoded state decoded, step_of_decoded alike (by rw [opcodes, decoded])]
          refine ⟨rfl, ⟨rfl, ?_⟩, next⟩
          rw [Instruction.after_pc, Instruction.after_pc, abreast.pc]

end Abreast

/-- Two machines abreast that meet the same opcodes in the steps to come, because neither of them
stores over one. -/
structure InStep (budget : Nat) (left right : Machine Memory) : Prop where
  abreast : Abreast left right
  agree : ∀ address ∈ left.fetches budget, left.bus.read address = right.bus.read address
  leftSpares : ∀ address ∈ left.fetches budget, ¬ Written (left.accesses budget) address
  rightSpares : ∀ address ∈ left.fetches budget, ¬ Written (right.accesses budget) address

namespace InStep

variable {left right : Machine Memory} {budget : Nat}

theorem step (inStep : InStep (budget + 1) left right) :
    left.step.1 = right.step.1 ∧ Abreast left.step.2 right.step.2 ∧ left.next? = right.next? := by
  apply inStep.abreast.step
  intro address fetched
  exact inStep.agree address (mem_fetches_succ.mpr (Or.inl fetched))

theorem next (inStep : InStep (budget + 1) left right)
    (goes : left.step.2.state = .running) : InStep budget left.step.2 right.step.2 := by
  obtain ⟨_, stepped, _⟩ := inStep.step
  have alike : right.step.2.state = .running := stepped.state.symm.trans goes
  have leftSpared (address) (fetched : address ∈ left.step.2.fetches budget) :=
    not_written_of_accesses_succ goes
      (inStep.leftSpares address (mem_fetches_succ.mpr (Or.inr fetched)))
  have rightSpared (address) (fetched : address ∈ left.step.2.fetches budget) :=
    not_written_of_accesses_succ alike
      (inStep.rightSpares address (mem_fetches_succ.mpr (Or.inr fetched)))
  refine ⟨stepped, ?_, fun address fetched => (leftSpared address fetched).2,
    fun address fetched => (rightSpared address fetched).2⟩
  intro address fetched
  rw [read_step_of_not_written (leftSpared address fetched).1,
    read_step_of_not_written (rightSpared address fetched).1]
  exact inStep.agree address (mem_fetches_succ.mpr (Or.inr fetched))

theorem run (inStep : InStep budget left right) :
    (left.run budget).1 = (right.run budget).1 ∧
      Abreast (left.run budget).2 (right.run budget).2 ∧
      left.fetches budget = right.fetches budget ∧
      left.executed budget = right.executed budget := by
  induction budget generalizing left right with
  | zero =>
      rw [run_zero, run_zero, inStep.abreast.state]
      exact ⟨rfl, inStep.abreast, rfl, rfl⟩
  | succ budget ih =>
      obtain ⟨answer, stepped, next⟩ := inStep.step
      rw [fetches, fetches, executed, executed, inStep.abreast.fetch?_eq, next]
      cases state : left.step.2.state with
      | halted =>
          have alike : right.step.2.state = .halted := stepped.state.symm.trans state
          have leftStops : left.step.1 ≠ .ok .running := by simp [step_eq_running_iff, state]
          have rightStops : right.step.1 ≠ .ok .running := by simp [step_eq_running_iff, alike]
          rw [run_succ_of_stopped leftStops, run_succ_of_stopped rightStops,
            fetches_of_halted state, fetches_of_halted alike, executed_of_halted state,
            executed_of_halted alike]
          exact ⟨answer, stepped, rfl, rfl⟩
      | running =>
          have alike : right.step.2.state = .running := stepped.state.symm.trans state
          rw [run_succ_of_running (step_of_goes state), run_succ_of_running (step_of_goes alike)]
          obtain ⟨answers, ended, fetched, executed⟩ := ih (inStep.next state)
          exact ⟨answers, ended, congrArg (_ ++ ·) fetched, congrArg (_ ++ ·) executed⟩

end InStep

/-- Opcodes alone decide how a run goes and ends. Where two memories hold the same opcodes and
neither run writes over them, it does not matter what else the memories and the registers
hold. -/
theorem run_follows_opcodes (left right : Machine Memory) (budget : Nat)
    (state : left.state = right.state) (pc : left.registers.pc = right.registers.pc)
    (steps : left.steps = right.steps)
    (agree : ∀ address ∈ left.fetches budget, left.bus.read address = right.bus.read address)
    (spared : ∀ address ∈ left.fetches budget,
      ¬ Written (left.accesses budget) address ∧ ¬ Written (right.accesses budget) address) :
    (left.run budget).1 = (right.run budget).1 ∧
      left.fetches budget = right.fetches budget ∧
      (left.run budget).2.registers.pc = (right.run budget).2.registers.pc ∧
      (left.run budget).2.state = (right.run budget).2.state ∧
      (left.run budget).2.steps = (right.run budget).2.steps := by
  have inStep : InStep budget left right :=
    ⟨⟨state, pc⟩, agree, fun address fetched => (spared address fetched).1,
      fun address fetched => (spared address fetched).2⟩
  obtain ⟨answer, ended, fetched, executed⟩ := inStep.run
  refine ⟨answer, fetched, ended.pc, ended.state, ?_⟩
  rw [run_snd, run_snd, steps_after, steps_after, steps, executed]

/-- The two machines store different bytes in different places on their way to the return. -/
theorem run_follows_opcodes_apart :
    let left : Machine Memory :=
      ⟨{ a := 1, x := 2 }, .running, 0, (Memory.zero.write 0 0x95).write 1 0x10, .silent⟩
    let right : Machine Memory :=
      ⟨{ a := 9, y := 3 }, .running, 0, (Memory.zero.write 0 0x95).write 1 0x20, .silent⟩
    left.state = right.state ∧ left.registers.pc = right.registers.pc ∧
      left.steps = right.steps ∧ left.fetches 2 = [0, 2] ∧
      (∀ address ∈ left.fetches 2, left.bus.read address = right.bus.read address) ∧
      (∀ address ∈ left.fetches 2,
        ¬ Written (left.accesses 2) address ∧ ¬ Written (right.accesses 2) address) ∧
      Written (left.accesses 2) 0x12 ∧ Written (right.accesses 2) 0x20 ∧
      (left.run 2).1 = (right.run 2).1 ∧
      (left.run 2).2.registers.pc = (right.run 2).2.registers.pc := by
  intro left right
  have fetches : left.fetches 2 = [0, 2] := by
    simp [left, Machine.fetches, fetch?, step, Instruction.decode, Instruction.execute,
      Mode.resolve, Memory.read_write, Registers.advance, Mode.operandBytes]
  have leftAccesses : left.accesses 2 =
      [.read 0 0x95, .read 1 0x10, .write 0x12 1, .read 2 0] := by
    simp [left, accesses_eq, processor, Processor.run, Processor.step, Dialogue.accesses,
      Dialogue.bind, Instruction.dialogue, Mode.dialogue, Instruction.decode, Memory.read_write,
      Registers.advance, Mode.operandBytes]
  have rightAccesses : right.accesses 2 =
      [.read 0 0x95, .read 1 0x20, .write 0x20 9, .read 2 0] := by
    simp [right, accesses_eq, processor, Processor.run, Processor.step, Dialogue.accesses,
      Dialogue.bind, Instruction.dialogue, Mode.dialogue, Instruction.decode, Memory.read_write,
      Registers.advance, Mode.operandBytes]
  have agree : ∀ address ∈ left.fetches 2, left.bus.read address = right.bus.read address := by
    rw [fetches]
    simp [left, right, Memory.read_write]
  have spared : ∀ address ∈ left.fetches 2,
      ¬ Written (left.accesses 2) address ∧ ¬ Written (right.accesses 2) address := by
    rw [fetches, leftAccesses, rightAccesses]
    simp [written_read_cons, written_write_cons, not_written_nil]
  obtain ⟨answer, _, pc, _, _⟩ := run_follows_opcodes left right 2 rfl rfl rfl agree spared
  have leftWrites : Written (left.accesses 2) 0x12 := by
    rw [leftAccesses]
    exact ⟨1, by simp⟩
  have rightWrites : Written (right.accesses 2) 0x20 := by
    rw [rightAccesses]
    exact ⟨9, by simp⟩
  exact ⟨rfl, rfl, rfl, fetches, agree, spared, leftWrites, rightWrites, answer, pc⟩

end Machine

end Cpu6502
