/-
Sessions of calls. A host lets a machine execute by single steps, by runs with a budget and by
runs to the halt, in any order. Each call takes the machine through some number of its steps,
so what holds after any number of steps holds after every session, and a run that is cut into
slices cannot be told from the whole run.
-/

import Cpu6502.Machine.Operation
import Cpu6502.Memory
import Cpu6502.Proofs.Run

namespace Cpu6502

/-- An operation that lets a machine execute, as opposed to one that reaches into it. -/
inductive Call where
  | step
  | run (budget : Nat)
  | runToHalt (bound : Nat)

def Call.operation : Call → Operation
  | .step => .step
  | .run budget => .run budget
  | .runToHalt bound => .runToHalt bound

namespace Machine

variable {σ : Type u} [Bus σ]

def performAll : List Operation → Machine σ → List Answer × Machine σ
  | [], machine => ([], machine)
  | operation :: rest, machine =>
      let (answer, next) := machine.perform operation
      let (answers, final) := performAll rest next
      (answer :: answers, final)

/-! ### Calls take steps -/

/-- The steps that a call takes, those of a halted machine included. A run to the halt whose
bound does not suffice takes none. -/
def stepsOf (machine : Machine σ) : Call → Nat
  | .step => 1
  | .run budget => budget
  | .runToHalt bound => if (machine.runToHalt bound).isSome then bound else 0

theorem perform_call_snd (machine : Machine σ) (call : Call) :
    (machine.perform call.operation).2 = machine.after (machine.stepsOf call) := by
  cases call with
  | step => rfl
  | run budget => exact run_snd machine budget
  | runToHalt bound =>
      rw [Call.operation, perform, stepsOf]
      cases ended : machine.runToHalt bound with
      | none => rfl
      | some result => exact runToHalt_snd ended

def stepsIn : List Call → Machine σ → Nat
  | [], _ => 0
  | call :: rest, machine =>
      machine.stepsOf call + stepsIn rest (machine.perform call.operation).2

/-- A session leaves the machine that its steps lead to. -/
theorem performAll_calls_snd (machine : Machine σ) (calls : List Call) :
    (machine.performAll (calls.map Call.operation)).2 = machine.after (machine.stepsIn calls) := by
  induction calls generalizing machine with
  | nil => rfl
  | cons call rest ih =>
      rw [List.map_cons, performAll, stepsIn, after_add, ← perform_call_snd]
      exact ih _

theorem stepsIn_append (machine : Machine σ) (first second : List Call) :
    machine.stepsIn (first ++ second) =
      machine.stepsIn first + (machine.after (machine.stepsIn first)).stepsIn second := by
  induction first generalizing machine with
  | nil =>
      rw [List.nil_append, stepsIn, Nat.zero_add]
      rfl
  | cons call rest ih =>
      rw [List.cons_append, stepsIn, stepsIn, ih, Nat.add_assoc, after_add, perform_call_snd]

theorem stepsIn_concat (machine : Machine σ) (calls : List Call) (call : Call) :
    machine.stepsIn (calls ++ [call]) =
      machine.stepsIn calls + (machine.after (machine.stepsIn calls)).stepsOf call :=
  machine.stepsIn_append calls [call]

/-! ### Slices -/

/-- A run with a budget may be cut in two: the second slice goes on where the first one
stopped, and after a fault, which the first one has reported, it finds a halted machine. -/
theorem run_slices (machine : Machine σ) (first second : Nat) :
    (∀ state, (machine.run first).1 = .ok state →
      (machine.run first).2.run second = machine.run (first + second)) ∧
    ∀ fault, (machine.run first).1 = .error fault →
      machine.run (first + second) = machine.run first ∧
        (machine.run first).2.run second = (.ok .halted, (machine.run first).2) := by
  have whole := machine.run_add first second
  constructor
  · intro state answered
    rw [whole]
    rcases ran : machine.run first with ⟨answer, next⟩
    rw [ran] at answered
    cases answered
    rfl
  · intro fault faulted
    have halted := halted_of_run_error faulted
    refine ⟨?_, run_of_halted halted second⟩
    rw [whole]
    rcases ran : machine.run first with ⟨answer, next⟩
    rw [ran] at faulted
    cases faulted
    rfl

/-- The first slice ends between the increment and the byte that stands for nothing. -/
theorem run_slices_at_fault :
    let machine : Machine Memory :=
      ⟨{}, .running, 0, (Memory.zero.write 0 0xE8).write 1 0xEA, .silent⟩
    (machine.run 1).1 = .ok .running ∧ (machine.run 2).1 = .error (.illegalOpcode 0xEA 1) ∧
      (machine.run 1).2.run 1 = machine.run 2 ∧ machine.run 3 = machine.run 2 ∧
      (machine.run 2).2.run 1 = (.ok .halted, (machine.run 2).2) := by
  intro machine
  have going : (machine.run 1).1 = .ok .running := by
    simp [machine, run, step, Bus.read, Memory.read_write, Instruction.decode,
      Instruction.execute]
  have faulted : (machine.run 2).1 = .error (.illegalOpcode 0xEA 1) := by
    simp [machine, run, step, Bus.read, Memory.read_write, Instruction.decode,
      Instruction.execute, Registers.loadX, Registers.setZeroNegative, Registers.advance]
  obtain ⟨whole, still⟩ := (run_slices machine 2 1).2 _ faulted
  exact ⟨going, faulted, (run_slices machine 1 1).1 _ going, whole, still⟩

end Machine

end Cpu6502
