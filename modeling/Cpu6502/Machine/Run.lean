/-
Runs of many steps. A run with a budget stops when the machine halts or faults or when
the budget is spent; running to the halt has no budget of its own, so it is stated for
a bound on the steps and answers nothing when the bound does not suffice.
-/

import Cpu6502.Machine.Step

namespace Cpu6502

namespace Machine

variable {σ : Type u} [Bus σ]

/-- Takes at most `budget` steps and answers the state in which the machine is left. -/
@[specialize] def run : Nat → Machine σ → Except Fault RunState × Machine σ
  | 0, machine => (.ok machine.state, machine)
  | budget + 1, machine =>
      match machine.step with
      | (.ok .running, next) => run budget next
      | (.ok .halted, next) => (.ok .halted, next)
      | (.error fault, next) => (.error fault, next)

@[simp] theorem run_zero (machine : Machine σ) : machine.run 0 = (.ok machine.state, machine) := rfl

theorem run_succ_of_running {machine next : Machine σ} (stepped : machine.step = (.ok .running, next))
    (budget : Nat) : machine.run (budget + 1) = next.run budget := by
  simp only [run, stepped]

theorem run_succ_of_stopped {machine : Machine σ} (stopped : machine.step.1 ≠ .ok .running)
    (budget : Nat) : machine.run (budget + 1) = machine.step := by
  rw [run]
  split
  · next stepped => exact absurd (congrArg Prod.fst stepped) stopped
  · next stepped => exact stepped.symm
  · next stepped => exact stepped.symm

@[simp] theorem run_of_halted {machine : Machine σ} (halted : machine.state = .halted)
    (budget : Nat) : machine.run budget = (.ok .halted, machine) := by
  cases budget with
  | zero => rw [run_zero, halted]
  | succ budget =>
      have stepped := step_of_halted halted
      rw [run_succ_of_stopped (by simp [stepped]), stepped]

@[specialize] def settle : Nat → Machine σ → Option (Except Fault Unit × Machine σ)
  | 0, _ => none
  | bound + 1, machine =>
      match machine.step with
      | (.ok .running, next) => settle bound next
      | (.ok .halted, next) => some (.ok (), next)
      | (.error fault, next) => some (.error fault, next)

/-- Runs to the halt and answers how many instructions that took, if `bound` steps suffice. -/
@[specialize] def runToHalt (bound : Nat) (machine : Machine σ) :
    Option (Except Fault UInt64 × Machine σ) :=
  let before := machine.steps
  match machine.settle bound with
  | none => none
  | some (.ok (), final) => some (.ok (final.steps - before), final)
  | some (.error fault, final) => some (.error fault, final)

end Machine

end Cpu6502
