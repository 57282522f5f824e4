/-
What a machine has executed. A step of a running machine executes the instruction that the byte
at its program counter stands for, if there is one, and the step counter counts these
instructions and nothing else.
-/

import Cpu6502.Proofs.Run
import Cpu6502.Proofs.Step

namespace Cpu6502.Machine

variable {σ : Type u} [Bus σ]

/-- The instruction that the next step executes. -/
def next? (machine : Machine σ) : Option Instruction :=
  match machine.state with
  | .halted => none
  | .running => Instruction.decode (Bus.read machine.bus machine.registers.pc).1

theorem next?_of_running {machine : Machine Memory} (running : machine.state = .running) :
    machine.next? = Instruction.decode machine.opcode := by
  rw [next?, running]
  rfl

/-- The instructions that the first `count` steps execute, in their order. -/
def executed : Nat → Machine σ → List Instruction
  | 0, _ => []
  | count + 1, machine => machine.next?.toList ++ executed count machine.step.2

theorem executed_add (machine : Machine σ) (first second : Nat) :
    machine.executed (first + second) =
      machine.executed first ++ (machine.after first).executed second := by
  induction first generalizing machine with
  | zero => rw [Nat.zero_add, after_zero, executed, List.nil_append]
  | succ first ih =>
      rw [Nat.succ_add, executed, executed, after_succ, List.append_assoc]
      exact congrArg (machine.next?.toList ++ ·) (ih machine.step.2)

theorem executed_add_one (machine : Machine σ) (count : Nat) :
    machine.executed (count + 1) =
      machine.executed count ++ (machine.after count).next?.toList := by
  rw [executed_add, executed, executed, List.append_nil]

theorem executed_of_halted {machine : Machine σ} (halted : machine.state = .halted)
    (count : Nat) : machine.executed count = [] := by
  induction count with
  | zero => rfl
  | succ count ih =>
      rw [executed, next?, halted, step_of_halted halted]
      exact ih

theorem mem_executed_of_next {machine : Machine σ} {index count : Nat} (lt : index < count)
    {instruction : Instruction} (next : instruction ∈ (machine.after index).next?) :
    instruction ∈ machine.executed count := by
  obtain ⟨extra, rfl⟩ := Nat.exists_eq_add_of_le lt
  rw [Nat.succ_eq_add_one, executed_add, executed_add_one]
  exact List.mem_append_left _ (List.mem_append_right _ (Option.mem_toList.mpr next))

theorem step_of_next?_none {machine : Machine σ} (nothing : machine.next? = none) :
    (machine.step.2.registers = machine.registers ∨
      machine.step.2.registers = machine.registers.advance 1) ∧
      machine.step.2.steps = machine.steps := by
  obtain ⟨registers, state, steps, bus, journal⟩ := machine
  cases state with
  | halted => exact ⟨Or.inl rfl, rfl⟩
  | running =>
      change Instruction.decode (Bus.read bus registers.pc).1 = none at nothing
      simp [step, nothing]

theorem step_of_next?_some {machine : Machine σ} {instruction : Instruction}
    (next : machine.next? = some instruction) :
    machine.step.2.registers =
        (instruction.execute (machine.registers.advance 1)
          (Bus.read machine.bus machine.registers.pc).2).1 ∧
      machine.step.2.steps = machine.steps + 1 := by
  obtain ⟨registers, state, steps, bus, journal⟩ := machine
  cases state with
  | halted => cases next
  | running =>
      change Instruction.decode (Bus.read bus registers.pc).1 = some instruction at next
      by_cases returns : instruction.mnemonic = .ret <;> simp [step, next, returns]

/-- The step counter has grown by the number of instructions executed. -/
theorem steps_after (machine : Machine σ) (count : Nat) :
    (machine.after count).steps =
      machine.steps + UInt64.ofNat (machine.executed count).length := by
  induction count with
  | zero => exact (UInt64.add_zero _).symm
  | succ count ih =>
      rw [after_add_one, executed_add_one, List.length_append, UInt64.ofNat_add,
        ← UInt64.add_assoc, ← ih]
      cases next : (machine.after count).next? with
      | none => exact (step_of_next?_none next).2.trans (UInt64.add_zero _).symm
      | some instruction => exact (step_of_next?_some next).2

end Cpu6502.Machine
