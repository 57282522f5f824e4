/-
Runs as iterated steps. A halted machine stays as it is, so the machine that a run leaves is
the one after that many steps, and all runs that reach the halt end with the same step.
-/

import Cpu6502.Machine.Run
import Mathlib.Data.Nat.Find

namespace Cpu6502.Machine

variable {σ : Type u} [Bus σ]

/-- The machine after so many steps, whatever they answer. -/
def after : Nat → Machine σ → Machine σ
  | 0, machine => machine
  | count + 1, machine => after count machine.step.2

@[simp] theorem after_zero (machine : Machine σ) : machine.after 0 = machine := rfl

theorem after_succ (machine : Machine σ) (count : Nat) :
    machine.after (count + 1) = machine.step.2.after count := rfl

theorem after_add (machine : Machine σ) (first second : Nat) :
    machine.after (first + second) = (machine.after first).after second := by
  induction first generalizing machine with
  | zero => rw [Nat.zero_add, after_zero]
  | succ first ih =>
      rw [Nat.succ_add, after_succ, after_succ]
      exact ih machine.step.2

theorem after_add_one (machine : Machine σ) (count : Nat) :
    machine.after (count + 1) = (machine.after count).step.2 :=
  after_add machine count 1

theorem after_of_halted {machine : Machine σ} (halted : machine.state = .halted) (count : Nat) :
    machine.after count = machine := by
  induction count with
  | zero => rfl
  | succ count ih =>
      rw [after_succ, step_of_halted halted]
      exact ih

/-- The three ways of a step of a running machine: it goes on, it returns, or it faults, and
only a fault leaves the step uncounted. -/
theorem step_cases {machine : Machine σ} (running : machine.state = .running) :
    (machine.step.1 = .ok .running ∧ machine.step.2.state = .running ∧
      machine.step.2.steps = machine.steps + 1) ∨
    (machine.step.1 = .ok .halted ∧ machine.step.2.state = .halted ∧
      machine.step.2.steps = machine.steps + 1) ∨
    (∃ fault, machine.step.1 = .error fault ∧ machine.step.2.state = .halted ∧
      machine.step.2.steps = machine.steps) := by
  obtain ⟨registers, state, steps, bus, journal⟩ := machine
  cases running
  cases decoded : Instruction.decode (Bus.read bus registers.pc).1 with
  | none =>
      right
      right
      simp [step, decoded]
  | some instruction =>
      by_cases returns : instruction.mnemonic = .ret
      · right
        left
        simp [step, decoded, returns]
      · left
        simp [step, decoded, returns]

theorem step_eq_running_iff (machine : Machine σ) :
    machine.step.1 = .ok .running ↔ machine.step.2.state = .running := by
  cases begun : machine.state with
  | halted => simp [begun]
  | running =>
      rcases step_cases begun with ⟨answer, state, _⟩ | ⟨answer, state, _⟩ | ⟨_, answer, state, _⟩
      · simp [answer, state]
      · simp [answer, state]
      · simp [answer, state]

theorem step_of_goes {machine : Machine σ} (goes : machine.step.2.state = .running) :
    machine.step = (.ok .running, machine.step.2) :=
  Prod.ext ((step_eq_running_iff machine).mpr goes) rfl

theorem running_of_step_running {machine : Machine σ}
    (running : machine.step.2.state = .running) : machine.state = .running := by
  cases begun : machine.state with
  | running => rfl
  | halted =>
      rw [step_of_halted begun, begun] at running
      exact running

theorem running_of_after_running {machine : Machine σ} {early late : Nat}
    (running : (machine.after late).state = .running) (le : early ≤ late) :
    (machine.after early).state = .running := by
  induction le with
  | refl => exact running
  | step _ ih =>
      rw [after_add_one] at running
      exact ih (running_of_step_running running)

/-! ### The halt -/

/-- The machine runs for `count` steps and halts with the next one. -/
def HaltsAfter (machine : Machine σ) (count : Nat) : Prop :=
  (machine.after count).state = .running ∧ (machine.after (count + 1)).state = .halted

theorem haltsAfter_or_running {machine : Machine σ} (running : machine.state = .running) :
    (∃ count, machine.HaltsAfter count) ∨ ∀ count, (machine.after count).state = .running := by
  by_cases halts : ∃ count, (machine.after count).state = .halted
  · left
    have halted := Nat.find_spec halts
    cases first : Nat.find halts with
    | zero =>
        rw [first, after_zero, running] at halted
        cases halted
    | succ count =>
        rw [first] at halted
        have before := Nat.find_min halts (m := count) (by omega)
        refine ⟨count, ?_, halted⟩
        cases state : (machine.after count).state with
        | running => rfl
        | halted => exact absurd state before
  · right
    intro count
    cases state : (machine.after count).state with
    | running => rfl
    | halted => exact absurd ⟨count, state⟩ halts

/-- A running machine that some steps halt is halted by one of them. -/
theorem exists_haltsAfter {machine : Machine σ} (running : machine.state = .running)
    {budget : Nat} (halted : (machine.after budget).state = .halted) :
    ∃ count < budget, machine.HaltsAfter count := by
  rcases haltsAfter_or_running running with ⟨count, halts⟩ | runs
  · refine ⟨count, ?_, halts⟩
    by_contra le
    rw [running_of_after_running halts.1 (Nat.not_lt.mp le)] at halted
    cases halted
  · rw [runs budget] at halted
    cases halted

namespace HaltsAfter

variable {machine : Machine σ} {count : Nat}

theorem state_of_lt (halts : machine.HaltsAfter count) {other : Nat} (lt : count < other) :
    (machine.after other).state = .halted := by
  obtain ⟨extra, rfl⟩ := Nat.exists_eq_add_of_le lt
  rw [Nat.succ_eq_add_one, after_add, after_of_halted halts.2]
  exact halts.2

theorem state_of_le (halts : machine.HaltsAfter count) {other : Nat} (le : other ≤ count) :
    (machine.after other).state = .running :=
  running_of_after_running halts.1 le

theorem after_eq (halts : machine.HaltsAfter count) {other : Nat} (lt : count < other) :
    machine.after other = machine.after (count + 1) := by
  obtain ⟨extra, rfl⟩ := Nat.exists_eq_add_of_le lt
  rw [Nat.succ_eq_add_one, after_add, after_of_halted halts.2]

theorem answer (halts : machine.HaltsAfter count) :
    (machine.after count).step.1 = .ok .halted ∧
        (machine.after (count + 1)).steps = (machine.after count).steps + 1 ∨
      ∃ fault, (machine.after count).step.1 = .error fault ∧
        (machine.after (count + 1)).steps = (machine.after count).steps := by
  have halted := halts.2
  rw [after_add_one] at halted ⊢
  rcases step_cases halts.1 with ⟨_, state, _⟩ | ⟨answer, _, steps⟩ | ⟨fault, answer, _, steps⟩
  · rw [state] at halted
    cases halted
  · exact Or.inl ⟨answer, steps⟩
  · exact Or.inr ⟨fault, answer, steps⟩

end HaltsAfter

/-! ### Runs and the halt -/

theorem run_add_of_running {machine : Machine σ} {count : Nat}
    (running : (machine.after count).state = .running) (budget : Nat) :
    machine.run (count + budget) = (machine.after count).run budget := by
  induction count generalizing machine with
  | zero => rw [Nat.zero_add, after_zero]
  | succ count ih =>
      have first := running_of_after_running running (Nat.succ_le_succ count.zero_le)
      rw [Nat.succ_add, run_succ_of_running (step_of_goes first)]
      exact ih running

theorem run_of_running {machine : Machine σ} {budget : Nat}
    (running : (machine.after budget).state = .running) :
    machine.run budget = (.ok .running, machine.after budget) := by
  have split := run_add_of_running running 0
  rw [Nat.add_zero, run_zero, running] at split
  exact split

theorem HaltsAfter.run_eq {machine : Machine σ} {count : Nat} (halts : machine.HaltsAfter count)
    {budget : Nat} (lt : count < budget) : machine.run budget = (machine.after count).step := by
  obtain ⟨extra, rfl⟩ := Nat.exists_eq_add_of_le lt
  rw [show count.succ + extra = count + (extra + 1) by omega, run_add_of_running halts.1]
  apply run_succ_of_stopped
  intro goes
  have running := (step_eq_running_iff _).mp goes
  rw [← after_add_one, halts.2] at running
  cases running

/-- A run leaves the machine that its steps lead to. -/
theorem run_snd (machine : Machine σ) (budget : Nat) :
    (machine.run budget).2 = machine.after budget := by
  cases begun : machine.state with
  | halted => rw [run_of_halted begun, after_of_halted begun]
  | running =>
      cases state : (machine.after budget).state with
      | running => rw [run_of_running state]
      | halted =>
          obtain ⟨count, lt, halts⟩ := exists_haltsAfter begun state
          rw [halts.run_eq lt, halts.after_eq lt, after_add_one]

theorem halted_of_stopped {machine : Machine σ} (stopped : machine.step.1 ≠ .ok .running) :
    machine.step.2.state = .halted := by
  cases state : machine.step.2.state with
  | running => exact absurd ((step_eq_running_iff machine).mpr state) stopped
  | halted => rfl

theorem halted_of_run_error {machine : Machine σ} {budget : Nat} {fault : Fault}
    (faulted : (machine.run budget).1 = .error fault) : (machine.run budget).2.state = .halted := by
  rw [run_snd]
  cases state : (machine.after budget).state with
  | running =>
      rw [run_of_running state] at faulted
      cases faulted
  | halted => rfl

/-- A run goes on from where its first part stopped, unless that was a fault. -/
theorem run_add (machine : Machine σ) (first second : Nat) :
    machine.run (first + second) =
      match machine.run first with
      | (.ok _, next) => next.run second
      | (.error fault, next) => (.error fault, next) := by
  induction first generalizing machine with
  | zero => rw [Nat.zero_add, run_zero]
  | succ first ih =>
      rw [Nat.succ_add, run, run]
      rcases stepped : machine.step with ⟨fault | state, next⟩
      · rfl
      · cases state with
        | running => exact ih next
        | halted =>
            have halted : machine.step.2.state = .halted := halted_of_stopped (by simp [stepped])
            rw [stepped] at halted
            exact (run_of_halted halted second).symm

/-- The run to the halt, unbounded: some bound suffices for this answer. -/
def RunsToHalt (machine : Machine σ) (answer : Except Fault UInt64) (final : Machine σ) : Prop :=
  ∃ bound, machine.runToHalt bound = some (answer, final)

theorem settle_add_of_running {machine : Machine σ} {count : Nat}
    (running : (machine.after count).state = .running) (bound : Nat) :
    machine.settle (count + bound) = (machine.after count).settle bound := by
  induction count generalizing machine with
  | zero => rw [Nat.zero_add, after_zero]
  | succ count ih =>
      have first := running_of_after_running running (Nat.succ_le_succ count.zero_le)
      rw [Nat.succ_add, settle, step_of_goes first]
      exact ih running

theorem settle_of_running {machine : Machine σ} {bound : Nat}
    (running : (machine.after bound).state = .running) : machine.settle bound = none :=
  settle_add_of_running running 0

def haltAnswer (before after : Machine σ) (last : Except Fault RunState) : Except Fault UInt64 :=
  last.map fun _ => after.steps - before.steps

theorem HaltsAfter.runToHalt_eq {machine : Machine σ} {count : Nat}
    (halts : machine.HaltsAfter count) {bound : Nat} (lt : count < bound) :
    machine.runToHalt bound =
      some (haltAnswer machine (machine.after (count + 1)) (machine.after count).step.1,
        machine.after (count + 1)) := by
  obtain ⟨extra, rfl⟩ := Nat.exists_eq_add_of_le lt
  have settled : machine.settle (count.succ + extra) =
      some ((machine.after count).step.1.map fun _ => (), machine.after (count + 1)) := by
    rw [show count.succ + extra = count + (extra + 1) by omega,
      settle_add_of_running halts.1, settle, after_add_one]
    rcases stepped : (machine.after count).step with ⟨answer, next⟩
    rcases halts.answer with ⟨returned, _⟩ | ⟨fault, faulted, _⟩
    · rw [stepped] at returned
      cases returned
      rfl
    · rw [stepped] at faulted
      cases faulted
      rfl
  rw [runToHalt, settled]
  cases (machine.after count).step.1 <;> rfl

theorem runToHalt_of_running {machine : Machine σ} {bound : Nat}
    (running : (machine.after bound).state = .running) : machine.runToHalt bound = none := by
  rw [runToHalt, settle_of_running running]

theorem runToHalt_snd {machine final : Machine σ} {bound : Nat} {answer : Except Fault UInt64}
    (ended : machine.runToHalt bound = some (answer, final)) : final = machine.after bound := by
  cases begun : machine.state with
  | halted =>
      rw [after_of_halted begun]
      cases bound with
      | zero => cases ended
      | succ bound =>
          rw [runToHalt, settle, step_of_halted begun] at ended
          cases ended
          rfl
  | running =>
      cases state : (machine.after bound).state with
      | running =>
          rw [runToHalt_of_running state] at ended
          cases ended
      | halted =>
          obtain ⟨count, lt, halts⟩ := exists_haltsAfter begun state
          rw [halts.runToHalt_eq lt] at ended
          cases ended
          exact (halts.after_eq lt).symm

/-- A run to the halt ends exactly where the steps first reach a halt. -/
theorem runsToHalt_iff {machine : Machine σ} (running : machine.state = .running)
    (answer : Except Fault UInt64) (final : Machine σ) :
    machine.RunsToHalt answer final ↔
      ∃ count, machine.HaltsAfter count ∧ final = machine.after (count + 1) ∧
        answer = haltAnswer machine final (machine.after count).step.1 := by
  constructor
  · intro ends
    obtain ⟨bound, ended⟩ := ends
    cases state : (machine.after bound).state with
    | running =>
        rw [runToHalt_of_running state] at ended
        cases ended
    | halted =>
        obtain ⟨count, lt, halts⟩ := exists_haltsAfter running state
        rw [halts.runToHalt_eq lt] at ended
        cases ended
        exact ⟨count, halts, rfl, rfl⟩
  · intro ends
    obtain ⟨count, halts, rfl, rfl⟩ := ends
    exact ⟨count + 1, halts.runToHalt_eq count.lt_succ_self⟩

end Cpu6502.Machine
