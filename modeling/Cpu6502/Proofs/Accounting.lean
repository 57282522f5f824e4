/-
What the step counter and the answers of runs say about each other.
`Machine.run_runToHalt_agree` brings stepping, runs with a budget and the run to the halt
together.
-/

import Cpu6502.Memory
import Cpu6502.Proofs.Run
import Mathlib.Order.Bounds.Basic

namespace Cpu6502.Machine

variable {σ : Type u} [Bus σ]

/-! ### The step counter -/

/-- The step counter does not wrap in the first `count` steps. -/
def Unwrapped (machine : Machine σ) (count : Nat) : Prop :=
  ∀ index < count, (machine.after index).steps ≤ (machine.after (index + 1)).steps

def counted (machine : Machine σ) (budget : Nat) : Nat :=
  (machine.run budget).2.steps.toNat - machine.steps.toNat

theorem Unwrapped.mono {machine : Machine σ} {fewer more : Nat}
    (unwrapped : machine.Unwrapped more) (le : fewer ≤ more) : machine.Unwrapped fewer :=
  fun index lt => unwrapped index (Nat.lt_of_lt_of_le lt le)

private theorem toNat_add_one_of_le {steps : UInt64} (le : steps ≤ steps + 1) :
    (steps + 1).toNat = steps.toNat + 1 := by
  have bound := steps.toNat_lt
  rw [UInt64.le_iff_toNat_le, UInt64.toNat_add, UInt64.toNat_one] at le
  rw [UInt64.toNat_add, UInt64.toNat_one]
  omega

theorem toNat_steps_of_running {machine : Machine σ} {count : Nat}
    (running : (machine.after count).state = .running) (unwrapped : machine.Unwrapped count) :
    (machine.after count).steps.toNat = machine.steps.toNat + count := by
  induction count with
  | zero => rfl
  | succ count ih =>
      have before := running_of_after_running running count.le_succ
      have earlier := ih before (unwrapped.mono count.le_succ)
      have grows := unwrapped count count.lt_succ_self
      rw [after_add_one] at running grows ⊢
      rcases step_cases before with ⟨_, _, steps⟩ | ⟨_, halted, _⟩ | ⟨_, _, halted, _⟩
      · rw [steps] at grows ⊢
        rw [toNat_add_one_of_le grows]
        omega
      · rw [running] at halted
        cases halted
      · rw [running] at halted
        cases halted

theorem HaltsAfter.toNat_steps {machine : Machine σ} {count : Nat}
    (halts : machine.HaltsAfter count) (unwrapped : machine.Unwrapped (count + 1)) :
    (machine.after count).step.1 = .ok .halted ∧
        (machine.after (count + 1)).steps.toNat = machine.steps.toNat + (count + 1) ∨
      ∃ fault, (machine.after count).step.1 = .error fault ∧
        (machine.after (count + 1)).steps.toNat = machine.steps.toNat + count := by
  have earlier := toNat_steps_of_running halts.1 (unwrapped.mono count.le_succ)
  have grows := unwrapped count count.lt_succ_self
  rcases halts.answer with ⟨answer, steps⟩ | ⟨fault, answer, steps⟩
  · left
    rw [steps] at grows
    rw [steps, toNat_add_one_of_le grows]
    exact ⟨answer, by omega⟩
  · right
    rw [steps]
    exact ⟨fault, answer, earlier⟩

theorem unwrapped_of_lt {machine : Machine σ} {count : Nat}
    (room : machine.steps.toNat + count < UInt64.size) : machine.Unwrapped count := by
  induction count with
  | zero =>
      intro index lt
      exact absurd lt index.not_lt_zero
  | succ count ih =>
      have earlier := ih (by omega)
      intro index lt
      rcases Nat.lt_succ_iff_lt_or_eq.mp lt with lt | rfl
      · exact earlier index lt
      · rw [after_add_one]
        cases state : (machine.after index).state with
        | halted =>
            rw [step_of_halted state]
            exact UInt64.le_refl _
        | running =>
            have steps := toNat_steps_of_running state earlier
            have counts : (machine.after index).steps ≤ (machine.after index).steps + 1 := by
              rw [UInt64.le_iff_toNat_le, UInt64.toNat_add, UInt64.toNat_one, steps,
                Nat.add_assoc, Nat.mod_eq_of_lt room]
              omega
            rcases step_cases state with ⟨_, _, next⟩ | ⟨_, _, next⟩ | ⟨_, _, _, next⟩ <;> rw [next]
            · exact counts
            · exact counts
            · exact UInt64.le_refl _

theorem HaltsAfter.counted_eq {machine : Machine σ} {count : Nat}
    (halts : machine.HaltsAfter count) {budget : Nat} (lt : count < budget) :
    machine.counted budget =
      (machine.after (count + 1)).steps.toNat - machine.steps.toNat := by
  rw [counted, run_snd, halts.after_eq lt]

/-! ### Budgets -/

theorem run_eq_running_iff {machine : Machine σ} (running : machine.state = .running)
    (budget : Nat) :
    (machine.run budget).1 = .ok .running ↔ (machine.run budget).2.state = .running := by
  rcases haltsAfter_or_running running with ⟨count, halts⟩ | runs
  · by_cases lt : count < budget
    · rw [halts.run_eq lt]
      exact step_eq_running_iff _
    · simp [run_of_running (halts.state_of_le (Nat.not_lt.mp lt)),
        halts.state_of_le (Nat.not_lt.mp lt)]
  · simp [run_of_running (runs budget), runs budget]

theorem exists_haltsAfter_of_run {machine : Machine σ} (running : machine.state = .running)
    {budget : Nat} {answer : Except Fault RunState} (ends : (machine.run budget).1 = answer)
    (stopped : answer ≠ .ok .running) : ∃ count < budget, machine.HaltsAfter count := by
  apply exists_haltsAfter running
  cases state : (machine.after budget).state with
  | halted => rfl
  | running =>
      rw [run_of_running state] at ends
      exact absurd ends.symm stopped

theorem HaltsAfter.run_ne_running_iff {machine : Machine σ} {count : Nat}
    (halts : machine.HaltsAfter count) (budget : Nat) :
    (machine.run budget).1 ≠ .ok .running ↔ count < budget := by
  have begun : machine.state = .running := halts.state_of_le count.zero_le
  rw [ne_eq, run_eq_running_iff begun, run_snd]
  constructor
  · intro stopped
    by_contra le
    exact stopped (halts.state_of_le (Nat.not_lt.mp le))
  · intro lt
    rw [halts.state_of_lt lt]
    simp

theorem counted_of_run {machine : Machine σ} (running : machine.state = .running) {budget : Nat}
    (unwrapped : machine.Unwrapped budget) :
    ((machine.run budget).1 = .ok .running → machine.counted budget = budget) ∧
    ((machine.run budget).1 = .ok .halted →
      1 ≤ machine.counted budget ∧ machine.counted budget ≤ budget) ∧
    ∀ fault, (machine.run budget).1 = .error fault → machine.counted budget + 1 ≤ budget := by
  cases state : (machine.after budget).state with
  | running =>
      have counts := toNat_steps_of_running state unwrapped
      rw [counted, run_of_running state, counts]
      simp
  | halted =>
      obtain ⟨count, lt, halts⟩ := exists_haltsAfter running state
      rw [halts.counted_eq lt, halts.run_eq lt]
      rcases halts.toNat_steps (unwrapped.mono lt) with ⟨answer, steps⟩ | ⟨fault, answer, steps⟩
      · rw [answer, steps]
        simp
        omega
      · rw [answer, steps]
        simp
        omega

theorem HaltsAfter.isLeast_budget {machine : Machine σ} {count : Nat}
    (halts : machine.HaltsAfter count) (stops : Except Fault RunState → Prop)
    (stopped : stops (machine.after count).step.1) (goes : ¬ stops (.ok .running)) :
    IsLeast {budget | stops (machine.run budget).1} (count + 1) := by
  constructor
  · change stops (machine.run (count + 1)).1
    rw [halts.run_eq count.lt_succ_self]
    exact stopped
  · intro budget ends
    apply (halts.run_ne_running_iff budget).mp
    intro running
    change stops (machine.run budget).1 at ends
    rw [running] at ends
    exact goes ends

theorem HaltsAfter.haltAnswer_eq_ok_iff {machine : Machine σ} {count : Nat}
    (halts : machine.HaltsAfter count) (unwrapped : machine.Unwrapped (count + 1)) (n : UInt64) :
    haltAnswer machine (machine.after (count + 1)) (machine.after count).step.1 = .ok n ↔
      (machine.after count).step.1 = .ok .halted ∧ n.toNat = count + 1 := by
  rcases halts.toNat_steps unwrapped with ⟨answer, steps⟩ | ⟨fault, answer, steps⟩
  · have le : machine.steps ≤ (machine.after (count + 1)).steps := by
      rw [UInt64.le_iff_toNat_le, steps]
      omega
    have grown : ((machine.after (count + 1)).steps - machine.steps).toNat = count + 1 := by
      rw [UInt64.toNat_sub_of_le _ _ le, steps]
      omega
    rw [answer]
    constructor
    · intro same
      cases same
      exact ⟨rfl, grown⟩
    · intro last
      exact congrArg Except.ok (UInt64.toNat_inj.mp (grown.trans last.2.symm))
  · rw [answer]
    constructor
    · intro same
      cases same
    · intro last
      cases last.1

theorem HaltsAfter.haltAnswer_eq_error_iff {machine : Machine σ} {count : Nat}
    (halts : machine.HaltsAfter count) (fault : Fault) :
    haltAnswer machine (machine.after (count + 1)) (machine.after count).step.1 = .error fault ↔
      (machine.after count).step.1 = .error fault := by
  rcases halts.answer with ⟨answer, _⟩ | ⟨other, answer, _⟩ <;> rw [answer]
  · simp [haltAnswer, Except.map]
  · simp [haltAnswer, Except.map]

/-- A run to the halt that counts `n` instructions is the run with the least budget that
returns, and this budget is `n`. -/
theorem runsToHalt_ok_iff {machine : Machine σ} (running : machine.state = .running)
    (unwrapped : ∀ count, machine.HaltsAfter count → machine.Unwrapped (count + 1)) (n : UInt64) :
    (∃ final, machine.RunsToHalt (.ok n) final) ↔
      (machine.run n.toNat).1 = .ok .halted ∧
        ∀ budget < n.toNat, (machine.run budget).1 = .ok .running := by
  constructor
  · intro ended
    obtain ⟨final, ends⟩ := ended
    obtain ⟨count, halts, rfl, answer⟩ := (runsToHalt_iff running _ final).mp ends
    obtain ⟨returned, number⟩ :=
      (halts.haltAnswer_eq_ok_iff (unwrapped count halts) n).mp answer.symm
    rw [number]
    constructor
    · rw [halts.run_eq count.lt_succ_self]
      exact returned
    · intro budget lt
      rw [run_of_running (halts.state_of_le (Nat.lt_succ_iff.mp lt))]
  · intro first
    obtain ⟨returned, goes⟩ := first
    obtain ⟨count, lt, halts⟩ := exists_haltsAfter_of_run running returned (by simp)
    have number : n.toNat = count + 1 := by
      by_contra different
      apply (halts.run_ne_running_iff (count + 1)).mpr count.lt_succ_self
      exact goes (count + 1) (by omega)
    rw [halts.run_eq lt] at returned
    have answer := (halts.haltAnswer_eq_ok_iff (unwrapped count halts) n).mpr ⟨returned, number⟩
    exact ⟨_, (runsToHalt_iff running _ _).mpr ⟨count, halts, rfl, answer.symm⟩⟩

/-- A run to the halt faults exactly when a run with some budget does. -/
theorem runsToHalt_error_iff {machine : Machine σ} (running : machine.state = .running)
    (fault : Fault) :
    (∃ final, machine.RunsToHalt (.error fault) final) ↔
      ∃ budget, (machine.run budget).1 = .error fault := by
  constructor
  · intro ended
    obtain ⟨final, ends⟩ := ended
    obtain ⟨count, halts, rfl, answer⟩ := (runsToHalt_iff running _ final).mp ends
    refine ⟨count + 1, ?_⟩
    rw [halts.run_eq count.lt_succ_self]
    exact (halts.haltAnswer_eq_error_iff fault).mp answer.symm
  · intro faults
    obtain ⟨budget, faulted⟩ := faults
    obtain ⟨count, lt, halts⟩ := exists_haltsAfter_of_run running faulted (by simp)
    rw [halts.run_eq lt] at faulted
    have answer := (halts.haltAnswer_eq_error_iff fault).mpr faulted
    exact ⟨_, (runsToHalt_iff running _ _).mpr ⟨count, halts, rfl, answer.symm⟩⟩

theorem isLeast_fault_budget {machine : Machine σ} (running : machine.state = .running)
    (unwrapped : ∀ count, machine.HaltsAfter count → machine.Unwrapped (count + 1))
    {fault : Fault} {least : Nat}
    (isLeast : IsLeast {budget | (machine.run budget).1 = .error fault} least) :
    least = machine.counted least + 1 := by
  have faulted : (machine.run least).1 = .error fault := isLeast.1
  obtain ⟨count, lt, halts⟩ := exists_haltsAfter_of_run running faulted (by simp)
  rw [halts.run_eq lt] at faulted
  have first := halts.isLeast_budget (· = .error fault) faulted (by simp)
  rw [isLeast.unique first, halts.counted_eq count.lt_succ_self]
  rcases halts.toNat_steps (unwrapped count halts) with ⟨answer, _⟩ | ⟨_, _, steps⟩
  · rw [answer] at faulted
    cases faulted
  · rw [steps]
    omega

/-- Stepping, running with a budget and running to the halt agree, and each accounts for
the instructions that it counts. -/
theorem run_runToHalt_agree (machine : Machine σ) (running : machine.state = .running) :
    (∀ budget,
      ((machine.run budget).1 = .ok .running ↔ (machine.run budget).2.state = .running) ∧
      (machine.Unwrapped budget →
        ((machine.run budget).1 = .ok .running → machine.counted budget = budget) ∧
        ((machine.run budget).1 = .ok .halted →
          1 ≤ machine.counted budget ∧ machine.counted budget ≤ budget) ∧
        ∀ fault, (machine.run budget).1 = .error fault →
          machine.counted budget + 1 ≤ budget)) ∧
    ((∀ count, machine.HaltsAfter count → machine.Unwrapped (count + 1)) →
      (∀ n : UInt64, (∃ final, machine.RunsToHalt (.ok n) final) ↔
        (machine.run n.toNat).1 = .ok .halted ∧
          ∀ budget < n.toNat, (machine.run budget).1 = .ok .running) ∧
      ∀ fault least, IsLeast {budget | (machine.run budget).1 = .error fault} least →
        least = machine.counted least + 1) ∧
    (∀ fault, (∃ final, machine.RunsToHalt (.error fault) final) ↔
      ∃ budget, (machine.run budget).1 = .error fault) ∧
    (∀ answer final, machine.RunsToHalt answer final →
      ∃ least, IsLeast {budget | (machine.run budget).1 ≠ .ok .running} least ∧
        ∀ budget, least ≤ budget → (machine.run budget).2 = final) ∧
    ((∀ budget, (machine.run budget).2.state = .running) →
      ∀ answer final, ¬ machine.RunsToHalt answer final) := by
  refine ⟨?_, ?_, ?_, ?_, ?_⟩
  · intro budget
    exact ⟨run_eq_running_iff running budget, counted_of_run running⟩
  · intro unwrapped
    exact ⟨runsToHalt_ok_iff running unwrapped,
      fun _ _ isLeast => isLeast_fault_budget running unwrapped isLeast⟩
  · exact runsToHalt_error_iff running
  · intro answer final ends
    obtain ⟨count, halts, rfl, _⟩ := (runsToHalt_iff running answer final).mp ends
    have stops : (machine.after count).step.1 ≠ .ok .running := by
      rw [← halts.run_eq count.lt_succ_self]
      exact (halts.run_ne_running_iff _).mpr count.lt_succ_self
    refine ⟨count + 1, halts.isLeast_budget (· ≠ .ok .running) stops (by simp), ?_⟩
    intro budget le
    rw [run_snd, halts.after_eq le]
  · intro runs answer final ends
    obtain ⟨count, halts, _, _⟩ := (runsToHalt_iff running answer final).mp ends
    have halted := halts.2
    rw [← run_snd, runs] at halted
    cases halted

theorem HaltsAfter.unwrapped {machine : Machine σ} {count : Nat} (halts : machine.HaltsAfter count)
    (room : machine.steps.toNat + (count + 1) < UInt64.size) :
    ∀ other, machine.HaltsAfter other → machine.Unwrapped (other + 1) := by
  intro other halts'
  have le : other ≤ count := by
    by_contra lt
    have running := halts'.1
    rw [halts.state_of_lt (Nat.lt_of_not_le lt)] at running
    cases running
  exact (unwrapped_of_lt room).mono (Nat.succ_le_succ le)

/-- Two runs from a counter at five. Two increments and a return are three instructions; the
fault behind one increment takes a second step, which is not counted. -/
theorem run_runToHalt_agree_from_five :
    let returning : Machine Memory :=
      ⟨{}, .running, 5, (Memory.zero.write 0 0xE8).write 1 0xE8, .silent⟩
    let faulting : Machine Memory :=
      ⟨{}, .running, 5, (Memory.zero.write 0 0xE8).write 1 0xEA, .silent⟩
    (∀ count, returning.HaltsAfter count → returning.Unwrapped (count + 1)) ∧
      (∃ final, returning.RunsToHalt (.ok 3) final ∧ (returning.run 7).2 = final ∧
        final.steps = 8) ∧
      returning.counted 2 = 2 ∧ 1 ≤ returning.counted 7 ∧ returning.counted 7 ≤ 7 ∧
    (∀ count, faulting.HaltsAfter count → faulting.Unwrapped (count + 1)) ∧
      (∃ final, faulting.RunsToHalt (.error (.illegalOpcode 0xEA 1)) final ∧
        (faulting.run 7).2 = final ∧ final.steps = 6) ∧
      IsLeast {budget | (faulting.run budget).1 = .error (.illegalOpcode 0xEA 1)} 2 ∧
      faulting.counted 2 + 1 = 2 := by
  intro returning faulting
  have ran : (returning.run 2).1 = .ok .running ∧ (returning.run 3).1 = .ok .halted ∧
      (returning.run 3).2.state = .halted ∧ (returning.run 3).2.steps = 8 ∧
      (returning.run 7).1 = .ok .halted := by
    simp [returning, run, step, Bus.read, Memory.read_write, Instruction.decode,
      Instruction.execute, Registers.loadX, Registers.setZeroNegative, Registers.advance]
  have broke : (faulting.run 1).1 = .ok .running ∧
      (faulting.run 2).1 = .error (.illegalOpcode 0xEA 1) ∧
      (faulting.run 2).2.state = .halted ∧ (faulting.run 2).2.steps = 6 := by
    simp [faulting, run, step, Bus.read, Memory.read_write, Instruction.decode,
      Instruction.execute, Registers.loadX, Registers.setZeroNegative, Registers.advance]
  obtain ⟨goes, returned, halted, steps, whole⟩ := ran
  obtain ⟨goes', faulted, halted', steps'⟩ := broke
  obtain ⟨budgets, numbers, _, ends, _⟩ := run_runToHalt_agree returning rfl
  obtain ⟨budgets', numbers', faults', ends', _⟩ := run_runToHalt_agree faulting rfl
  have halts : returning.HaltsAfter 2 := by
    rw [HaltsAfter, ← run_snd, ← run_snd]
    exact ⟨(budgets 2).1.mp goes, halted⟩
  have halts' : faulting.HaltsAfter 1 := by
    rw [HaltsAfter, ← run_snd, ← run_snd]
    exact ⟨(budgets' 1).1.mp goes', halted'⟩
  have unwrapped := halts.unwrapped (by decide)
  have unwrapped' := halts'.unwrapped (by decide)
  obtain ⟨final, runs⟩ := ((numbers unwrapped).1 3).mpr ⟨returned, fun budget lt => by
    rw [run_of_running (halts.state_of_le (Nat.lt_succ_iff.mp lt))]⟩
  obtain ⟨least, isLeast, later⟩ := ends _ _ runs
  have le : least ≤ 3 := isLeast.2 (by simp [returned])
  obtain ⟨final', runs'⟩ := (faults' _).mpr ⟨2, faulted⟩
  obtain ⟨least', isLeast', later'⟩ := ends' _ _ runs'
  have le' : least' ≤ 2 := isLeast'.2 (by simp [faulted])
  have first : IsLeast {budget | (faulting.run budget).1 = .error (.illegalOpcode 0xEA 1)} 2 := by
    have answer := halts'.run_eq (Nat.lt_succ_self 1)
    refine halts'.isLeast_budget (· = .error (.illegalOpcode 0xEA 1)) ?_ (by simp)
    rw [← answer]
    exact faulted
  have counts := (budgets 7).2 (unwrapped_of_lt (by decide))
  refine ⟨unwrapped, ⟨final, runs, later 7 (by omega), ?_⟩, ?_, (counts.2.1 whole).1,
    (counts.2.1 whole).2, unwrapped', ⟨final', runs', later' 7 (by omega), ?_⟩, first, ?_⟩
  · rw [← later 3 le]
    exact steps
  · exact ((budgets 2).2 (unwrapped_of_lt (by decide))).1 goes
  · rw [← later' 2 le']
    exact steps'
  · exact ((numbers' unwrapped').2 _ _ first).symm

end Cpu6502.Machine
