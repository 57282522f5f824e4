/-
What a host learns of a halt. A session of calls, cut up as it may be, reports the fault that one
run over all its steps would report, in the call in which the machine halts. A machine that has
halted without a fault has executed a return, and a machine at rest answers that it is at rest.
-/

import Cpu6502.Proofs.History
import Cpu6502.Proofs.Session
import Cpu6502.Proofs.Step

namespace Cpu6502

variable {σ : Type u} [Bus σ]

def Fault.of? {α : Type} : Except Fault α → Option Fault
  | .error fault => some fault
  | .ok _ => none

/-- The fault that an answer reports. -/
def Answer.fault? : Answer → Option Fault
  | .stopped outcome => Fault.of? outcome
  | .counted outcome => Fault.of? outcome
  | .done | .unfinished | .loaded _ | .byte _ | .word _ => none

/-- What a call answers on a machine at rest. -/
def Call.idle : Call → Answer
  | .step | .run _ => .stopped (.ok .halted)
  | .runToHalt _ => .counted (.ok 0)

namespace Machine

/-! ### The faults of a session -/

theorem fault_of_step (machine : Machine σ) :
    Fault.of? machine.step.1 = Fault.of? (machine.run 1).1 := by
  rw [run]
  rcases machine.step with ⟨fault | state, next⟩
  · rfl
  · cases state <;> rfl

theorem fault_of_settle {machine final : Machine σ} {bound : Nat} {outcome : Except Fault Unit}
    (settled : machine.settle bound = some (outcome, final)) :
    Fault.of? outcome = Fault.of? (machine.run bound).1 := by
  induction bound generalizing machine with
  | zero => cases settled
  | succ bound ih =>
      rw [settle] at settled
      rw [run]
      rcases stepped : machine.step with ⟨fault | state, next⟩
      · rw [stepped] at settled
        cases settled
        rfl
      · rw [stepped] at settled
        cases state with
        | running => exact ih settled
        | halted =>
            cases settled
            rfl

/-- A call reports the fault of a run over the steps that it takes. -/
theorem fault_of_call (machine : Machine σ) (call : Call) :
    (machine.perform call.operation).1.fault? =
      Fault.of? (machine.run (machine.stepsOf call)).1 := by
  cases call with
  | step => exact machine.fault_of_step
  | run budget => rfl
  | runToHalt bound =>
      rw [Call.operation, perform, stepsOf, runToHalt]
      cases settled : machine.settle bound with
      | none => rfl
      | some result =>
          obtain ⟨outcome, final⟩ := result
          have same := fault_of_settle settled
          cases outcome <;> exact same

/-- The faults that a session reports, in their order. -/
def faults (machine : Machine σ) (calls : List Call) : List Fault :=
  (machine.performAll (calls.map Call.operation)).1.filterMap Answer.fault?

theorem faults_cons (machine : Machine σ) (call : Call) (rest : List Call) :
    machine.faults (call :: rest) =
      (machine.perform call.operation).1.fault?.toList ++
        (machine.perform call.operation).2.faults rest := by
  rw [faults, List.map_cons, performAll, List.filterMap_cons]
  cases (machine.perform call.operation).1.fault? <;> rfl

/-- However a session is cut into calls, its faults are those of the whole run. -/
theorem faults_eq (machine : Machine σ) (calls : List Call) :
    machine.faults calls = (Fault.of? (machine.run (machine.stepsIn calls)).1).toList := by
  induction calls generalizing machine with
  | nil => rfl
  | cons call rest ih =>
      have reached : (machine.perform call.operation).2 = (machine.run (machine.stepsOf call)).2 :=
        (perform_call_snd machine call).trans (run_snd machine _).symm
      rw [faults_cons, fault_of_call, ih, stepsIn, run_add, reached]
      rcases ran : machine.run (machine.stepsOf call) with ⟨fault | state, next⟩
      · have halted : (machine.run (machine.stepsOf call)).2.state = .halted :=
          halted_of_run_error (congrArg Prod.fst ran)
        rw [ran] at halted
        rw [run_of_halted halted]
        rfl
      · rfl

/-! ### Machines at rest -/

theorem runToHalt_of_halted {machine : Machine σ} (halted : machine.state = .halted)
    (bound : Nat) : machine.runToHalt (bound + 1) = some (.ok 0, machine) := by
  rw [runToHalt, settle, step_of_halted halted]
  simp

/-- Only a bound of no steps is too small to find that the machine is at rest. -/
theorem perform_call_of_halted {machine : Machine σ} (halted : machine.state = .halted)
    {call : Call} (looks : call ≠ .runToHalt 0) :
    machine.perform call.operation = (call.idle, machine) := by
  cases call with
  | step => rw [Call.operation, perform, step_of_halted halted, Call.idle]
  | run budget => rw [Call.operation, perform, run_of_halted halted, Call.idle]
  | runToHalt bound =>
      cases bound with
      | zero => exact absurd rfl looks
      | succ bound => rw [Call.operation, perform, runToHalt_of_halted halted, Call.idle]

end Machine

/-! ### The last step -/

namespace Machine

variable {machine : Machine Memory}

theorem executed_of_running {count : Nat} (goes : (machine.after count).state = .running) :
    (machine.executed count).length = count ∧
      ∀ instruction ∈ machine.executed count, instruction.mnemonic ≠ .ret := by
  induction count with
  | zero => exact ⟨rfl, fun _ member => absurd member List.not_mem_nil⟩
  | succ count ih =>
      have before := running_of_after_running goes count.le_succ
      rw [after_add_one] at goes
      obtain ⟨instruction, decoded, ordinary, _⟩ := pc_step_of_running goes before
      have next : (machine.after count).next? = some instruction :=
        (next?_of_running before).trans decoded
      obtain ⟨length, earlier⟩ := ih before
      rw [executed_add_one, next, List.length_append, length]
      refine ⟨rfl, ?_⟩
      intro other member
      rcases List.mem_append.mp member with early | last
      · exact earlier other early
      · rw [List.mem_singleton.mp last]
        exact ordinary

theorem HaltsAfter.executed_eq {count total : Nat} (halts : machine.HaltsAfter count)
    (lt : count < total) :
    machine.executed total = machine.executed count ++ (machine.after count).next?.toList := by
  obtain ⟨extra, rfl⟩ := Nat.exists_eq_add_of_le lt
  rw [Nat.succ_eq_add_one, executed_add, executed_of_halted halts.2, List.append_nil,
    executed_add_one]

/-- The machine has gone past a byte that stands for no instruction, and all else is as the
instruction before, which left `last`, had left it. -/
structure StoppedAt (opcode : Byte) (address : Address) (last final : Machine Memory) : Prop where
  byte : final.bus.read address = opcode
  undecoded : Instruction.decode opcode = none
  reached : last.registers.pc = address
  registers : final.registers = { last.registers with pc := address + 1 }
  bus : final.bus = last.bus
  steps : final.steps = last.steps

theorem HaltsAfter.stoppedAt {count : Nat} (halts : machine.HaltsAfter count) {opcode : Byte}
    {address : Address}
    (faulted : Fault.of? (machine.after count).step.1 = some (.illegalOpcode opcode address)) :
    (machine.after count).next? = none ∧
      StoppedAt opcode address (machine.after count) (machine.after (count + 1)) := by
  rw [after_add_one]
  cases decoded : Instruction.decode (machine.after count).opcode with
  | none =>
      rw [step_of_undecoded halts.1 decoded] at faulted ⊢
      cases faulted
      exact ⟨(next?_of_running halts.1).trans decoded, rfl, decoded, rfl, rfl, rfl, rfl⟩
  | some instruction =>
      rw [step_of_decoded halts.1 decoded] at faulted
      cases faulted

/-- A halt without a fault is a return, a single byte that stores nothing. -/
theorem HaltsAfter.returned {count : Nat} (halts : machine.HaltsAfter count)
    (faultless : Fault.of? (machine.after count).step.1 = none) :
    (machine.after count).next? = some ⟨.ret, .implicit⟩ ∧
      (machine.after (count + 1)).bus.read ((machine.after (count + 1)).registers.pc - 1) =
        0x00 := by
  have halted := halts.2
  rw [after_add_one] at halted ⊢
  cases decoded : Instruction.decode (machine.after count).opcode with
  | none =>
      rw [step_of_undecoded halts.1 decoded] at faultless
      cases faultless
  | some instruction =>
      rw [step_of_decoded halts.1 decoded] at halted ⊢
      obtain ⟨zero, rfl⟩ :=
        Instruction.eq_zero_of_ret decoded (Instruction.ret_of_halted halted)
      constructor
      · exact (next?_of_running halts.1).trans decoded
      · change (machine.after count).bus.read ((machine.after count).registers.pc + 1 - 1) = 0x00
        rw [UInt16.add_sub_cancel]
        exact zero

/-! ### Sessions -/

/-- In the session a return was executed. -/
def Returned (machine : Machine Memory) (calls : List Call) : Prop :=
  ∃ instruction ∈ machine.executed (machine.stepsIn calls), instruction.mnemonic = .ret

theorem not_returned_of_ordinary {calls : List Call}
    (ordinary : ∀ instruction ∈ machine.executed (machine.stepsIn calls),
      instruction.mnemonic ≠ .ret) : ¬ machine.Returned calls := by
  intro returned
  obtain ⟨instruction, member, returns⟩ := returned
  exact ordinary instruction member returns

theorem session_cases (running : machine.state = .running) (calls : List Call) :
    (machine.after (machine.stepsIn calls)).state = .running ∧
        machine.faults calls = [] ∧ ¬ machine.Returned calls ∨
      (machine.after (machine.stepsIn calls)).state = .halted ∧
        ((∃ fault, machine.faults calls = [fault]) ∧ ¬ machine.Returned calls ∨
          machine.faults calls = [] ∧ machine.Returned calls) := by
  rw [faults_eq]
  cases state : (machine.after (machine.stepsIn calls)).state with
  | running =>
      left
      rw [run_of_running state]
      exact ⟨rfl, rfl, not_returned_of_ordinary (executed_of_running state).2⟩
  | halted =>
      right
      obtain ⟨count, lt, halts⟩ := exists_haltsAfter running state
      have executed := halts.executed_eq lt
      rw [halts.run_eq lt]
      refine ⟨rfl, ?_⟩
      cases faulted : Fault.of? (machine.after count).step.1 with
      | some fault =>
          left
          obtain ⟨opcode, address⟩ := fault
          rw [(halts.stoppedAt faulted).1, Option.toList_none, List.append_nil] at executed
          refine ⟨⟨_, rfl⟩, not_returned_of_ordinary ?_⟩
          rw [executed]
          exact (executed_of_running halts.1).2
      | none =>
          right
          rw [(halts.returned faulted).1] at executed
          refine ⟨rfl, ⟨.ret, .implicit⟩, ?_, rfl⟩
          rw [executed]
          exact List.mem_append_right _ (List.mem_singleton_self _)

theorem fault_or_return (running : machine.state = .running) (calls : List Call) :
    (machine.faults calls).length ≤ 1 ∧
      ((machine.after (machine.stepsIn calls)).state = .halted ↔
        machine.faults calls ≠ [] ∨ machine.Returned calls) ∧
      ¬ (machine.faults calls ≠ [] ∧ machine.Returned calls) := by
  rcases session_cases running calls with
    ⟨state, none, ordinary⟩ | ⟨state, ⟨⟨fault, one⟩, ordinary⟩ | ⟨none, returned⟩⟩
  · simp [state, none, ordinary]
  · simp [state, one, ordinary]
  · simp [state, none, returned]

/-- The call in which a machine halts ends with the step in which it does, and reports its
fault. -/
theorem exists_haltsAfter_of_call {final : Machine Memory} {calls : List Call} {call : Call}
    (reached : final = machine.after (machine.stepsIn calls))
    (running : machine.state = .running) (goes : final.state = .running)
    (halted : (final.perform call.operation).2.state = .halted) :
    ∃ count < machine.stepsIn (calls ++ [call]), machine.HaltsAfter count ∧
      (final.perform call.operation).2 = machine.after (count + 1) ∧
      (final.perform call.operation).1.fault? = Fault.of? (machine.after count).step.1 := by
  subst reached
  have total := machine.stepsIn_concat calls call
  rw [perform_call_snd, ← after_add, ← total] at halted ⊢
  rw [fault_of_call, ← run_add_of_running goes, ← total]
  obtain ⟨count, lt, halts⟩ := exists_haltsAfter running halted
  refine ⟨count, lt, halts, halts.after_eq lt, ?_⟩
  rw [halts.run_eq lt]

/-- Calls halt a machine once. Either one of them reports a fault or a return was executed; the
fault names the byte that it met and leaves all else as the last instruction did; and from then
on the machine is at rest. -/
theorem halt_reported_once (machine : Machine Memory) (running : machine.state = .running)
    (calls : List Call) :
    let final := (machine.performAll (calls.map Call.operation)).2
    (machine.faults calls).length ≤ 1 ∧
    (final.state = .halted ↔ machine.faults calls ≠ [] ∨ machine.Returned calls) ∧
    ¬ (machine.faults calls ≠ [] ∧ machine.Returned calls) ∧
    (∀ call : Call, final.state = .running →
      let executed := machine.executed (machine.stepsIn (calls ++ [call]))
      let answer := (final.perform call.operation).1
      let halted := (final.perform call.operation).2
      halted.state = .halted →
        (∀ opcode address, answer.fault? = some (.illegalOpcode opcode address) →
          machine.executed executed.length = executed ∧
            StoppedAt opcode address (machine.after executed.length) halted) ∧
        (answer.fault? = none →
          halted.bus.read (halted.registers.pc - 1) = 0x00 ∧
            executed.getLast? = some ⟨.ret, .implicit⟩ ∧
            halted.steps = machine.steps + UInt64.ofNat executed.length)) ∧
    (final.state = .halted → ∀ call : Call, call ≠ .runToHalt 0 →
      final.perform call.operation = (call.idle, final)) := by
  intro final
  have reached : final = machine.after (machine.stepsIn calls) :=
    performAll_calls_snd machine calls
  obtain ⟨few, halts, exclusive⟩ := fault_or_return running calls
  rw [← reached] at halts
  refine ⟨few, halts, exclusive, ?_, ?_⟩
  · intro call goes executed answer halted state
    obtain ⟨count, lt, halts, ended, fault⟩ := exists_haltsAfter_of_call reached running goes state
    have parts : executed = machine.executed count ++ (machine.after count).next?.toList :=
      halts.executed_eq lt
    change halted = _ at ended
    rw [ended]
    constructor
    · intro opcode address faulted
      obtain ⟨nothing, stopped⟩ := halts.stoppedAt (fault.symm.trans faulted)
      rw [nothing, Option.toList_none, List.append_nil] at parts
      rw [parts, (executed_of_running halts.1).1]
      exact ⟨rfl, stopped⟩
    · intro faultless
      obtain ⟨next, byte⟩ := halts.returned (fault.symm.trans faultless)
      refine ⟨byte, ?_, ?_⟩
      · rw [parts, next]
        exact List.getLast?_concat
      · rw [← halts.after_eq lt]
        exact machine.steps_after _
  · intro halted call looks
    exact perform_call_of_halted halted looks

private theorem increment_then_nothing (running : machine.state = .running)
    (pc : machine.registers.pc = 0xFFFE) (increment : machine.bus.read 0xFFFE = 0xE8)
    (nothing : machine.bus.read 0xFFFF = 0xEA) :
    machine.HaltsAfter 1 ∧
      Fault.of? (machine.after 1).step.1 = some (.illegalOpcode 0xEA 0xFFFF) := by
  have decoded : Instruction.decode machine.opcode = some ⟨.inx, .implicit⟩ := by
    rw [opcode, pc, increment]
    rfl
  have stepped : machine.after 1 = (⟨.inx, .implicit⟩ : Instruction).after machine := by
    rw [after_add_one, after_zero, step_of_decoded running decoded]
  have goes : (machine.after 1).state = .running := by
    rw [stepped]
    rfl
  have top : (machine.after 1).registers.pc = 0xFFFF := by
    rw [stepped, Instruction.after_pc, pc]
    rfl
  have byte : (machine.after 1).opcode = 0xEA := by
    rw [opcode, top, stepped]
    exact nothing
  have undecoded : Instruction.decode (machine.after 1).opcode = none := by
    rw [byte]
    rfl
  have last := step_of_undecoded goes undecoded
  rw [byte, top] at last
  refine ⟨⟨goes, ?_⟩, ?_⟩
  · rw [after_add_one, last]
  · rw [last]
    rfl

/-- The first call executes an increment, and the run after it meets a byte that stands for
nothing at the top of the address space. -/
theorem halt_reported_once_by_run :
    let machine : Machine Memory :=
      ⟨{ pc := 0xFFFE, x := 7 }, .running, 3,
        (Memory.zero.write 0xFFFE 0xE8).write 0xFFFF 0xEA, .silent⟩
    machine.state = .running ∧ (machine.after 1).state = .running ∧
      ((machine.after 1).perform (Call.run 5).operation).1.fault? =
        some (.illegalOpcode 0xEA 0xFFFF) ∧
      ((machine.after 1).perform (Call.run 5).operation).2.state = .halted ∧
      (machine.executed 6).length = 1 ∧
      StoppedAt 0xEA 0xFFFF (machine.after 1)
        ((machine.after 1).perform (Call.run 5).operation).2 := by
  intro machine
  have running : machine.state = .running := rfl
  obtain ⟨halts, last⟩ := increment_then_nothing running rfl
    (by simp [machine, Memory.read_write]) (by simp [machine])
  clear_value machine
  have fault : ((machine.after 1).perform (Call.run 5).operation).1.fault? =
      some (.illegalOpcode 0xEA 0xFFFF) := by
    rw [fault_of_call, stepsOf, ← run_add_of_running halts.1, halts.run_eq (by decide), last]
  have halted : ((machine.after 1).perform (Call.run 5).operation).2.state = .halted := by
    rw [perform_call_snd, stepsOf, ← after_add]
    exact halts.state_of_lt (by decide)
  have one : (machine.executed 6).length = 1 := by
    rw [halts.executed_eq (by decide), (halts.stoppedAt last).1, Option.toList_none,
      List.append_nil, (executed_of_running halts.1).1]
  obtain ⟨_, _, _, report, _⟩ := halt_reported_once machine running [.step]
  have reports := report (.run 5)
  rw [performAll_calls_snd, show machine.stepsIn [.step] = 1 from rfl,
    show machine.stepsIn ([.step] ++ [.run 5]) = 6 from rfl] at reports
  obtain ⟨faulted, _⟩ := reports halts.1 halted
  have stopped := (faulted _ _ fault).2
  rw [one] at stopped
  exact ⟨running, halts.1, fault, halted, one, stopped⟩

end Machine

end Cpu6502
