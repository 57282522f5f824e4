/-
The moments of a run: the machine as it stood before each instruction that was executed. What
the counted instructions were and where they were fetched is read off these moments, so that
code which is rewritten later does not change the account. The program counter moves by the
sizes of the instructions counted, and by one more byte over a byte that stands for nothing.
-/

import Cpu6502.Proofs.Halt
import Mathlib.Algebra.GroupWithZero.Nat

namespace Cpu6502

/-- The bytes that an instruction takes up from its opcode on; a byte that is no opcode
begins none. -/
def Instruction.sizeOf (opcode : Byte) : Nat :=
  ((Instruction.decode opcode).map Instruction.size).getD 0

namespace Machine

section

variable {σ : Type u} [Bus σ]

/-- The machines, in the first `count` steps, that are about to execute an instruction. -/
def moments (machine : Machine σ) (count : Nat) : List (Machine σ) :=
  ((List.range count).map fun index => machine.after index).filter
    fun moment => moment.next?.isSome

theorem moments_succ (machine : Machine σ) (count : Nat) :
    machine.moments (count + 1) =
      [machine].filter (fun moment => moment.next?.isSome) ++ machine.step.2.moments count := by
  rw [moments, List.range_succ_eq_map, List.map_cons, List.map_map, ← List.singleton_append,
    List.filter_append]
  rfl

theorem moments_of_halted {machine : Machine σ} (halted : machine.state = .halted) (count : Nat) :
    machine.moments count = [] := by
  have nothing : machine.next? = none := by rw [next?, halted]
  induction count with
  | zero => rfl
  | succ count ih =>
      rw [moments_succ, step_of_halted halted, ih]
      simp [nothing]

theorem moments_add_one_of_none {machine : Machine σ} {count : Nat}
    (nothing : (machine.after count).next? = none) :
    machine.moments (count + 1) = machine.moments count := by
  rw [moments, List.range_succ, List.map_append, List.filter_append]
  simp [moments, nothing]

theorem moments_add_one_of_some {machine : Machine σ} {count : Nat} {instruction : Instruction}
    (next : (machine.after count).next? = some instruction) :
    machine.moments (count + 1) = machine.moments count ++ [machine.after count] := by
  rw [moments, List.range_succ, List.map_append, List.filter_append]
  simp [moments, next]

/-- At its moments a machine is about to execute what it executes, one after another. -/
theorem map_next?_moments (machine : Machine σ) (count : Nat) :
    (machine.moments count).map next? = (machine.executed count).map some := by
  induction count with
  | zero => rfl
  | succ count ih =>
      rw [executed_add_one, List.map_append, ← ih]
      cases next : (machine.after count).next? with
      | none =>
          rw [moments_add_one_of_none next]
          exact (List.append_nil _).symm
      | some instruction =>
          rw [moments_add_one_of_some next, List.map_append]
          simp [next]

theorem length_moments (machine : Machine σ) (count : Nat) :
    (machine.moments count).length = (machine.executed count).length := by
  rw [← List.length_map next?, map_next?_moments, List.length_map]

theorem length_moments_le (machine : Machine σ) (count : Nat) :
    (machine.moments count).length ≤ count := by
  refine Nat.le_trans (List.length_filter_le _ _) ?_
  rw [List.length_map, List.length_range]

theorem next?_isSome_of_mem {machine moment : Machine σ} {count : Nat}
    (member : moment ∈ machine.moments count) : moment.next?.isSome :=
  (List.mem_filter.mp member).2

theorem running_of_next? {machine : Machine σ} {instruction : Instruction}
    (next : machine.next? = some instruction) : machine.state = .running := by
  cases state : machine.state with
  | running => rfl
  | halted =>
      rw [next?, state] at next
      cases next

end

variable {machine : Machine Memory}

/-- Until it halts, a machine executes an instruction with every step. -/
theorem moments_eq_range (machine : Machine Memory) (count : Nat) :
    machine.moments count =
      (List.range (machine.executed count).length).map fun index => machine.after index := by
  induction count with
  | zero => rfl
  | succ count ih =>
      rw [executed_add_one]
      cases next : (machine.after count).next? with
      | none =>
          rw [moments_add_one_of_none next, Option.toList_none, List.append_nil]
          exact ih
      | some instruction =>
          have every := (executed_of_running (running_of_next? next)).1
          rw [every] at ih
          rw [moments_add_one_of_some next, ih, List.length_append, every, Option.toList_some,
            List.length_singleton, List.range_succ, List.map_append]
          rfl

theorem getElem_moments {count index : Nat} (lt : index < (machine.moments count).length) :
    (machine.moments count)[index] = machine.after index := by
  rw [List.getElem_of_eq (machine.moments_eq_range count), List.getElem_map, List.getElem_range]

theorem next?_isSome_of_lt {count index : Nat} (lt : index < (machine.moments count).length) :
    (machine.after index).next?.isSome := by
  have member := List.getElem_mem lt
  rw [getElem_moments lt] at member
  exact next?_isSome_of_mem member

/-- What a machine executes up to a moment is what it has executed by then. -/
theorem executed_take {count index : Nat} (lt : index < (machine.moments count).length) :
    (machine.executed count).take index = machine.executed index := by
  obtain ⟨instruction, next⟩ := Option.isSome_iff_exists.mp (next?_isSome_of_lt lt)
  have every := (executed_of_running (running_of_next? next)).1
  have few : index ≤ count :=
    Nat.le_of_lt (Nat.lt_of_lt_of_le lt (machine.length_moments_le count))
  obtain ⟨extra, rfl⟩ := Nat.exists_eq_add_of_le few
  rw [executed_add]
  exact List.take_left' every

theorem decode_of_next? {instruction : Instruction} (next : machine.next? = some instruction) :
    Instruction.decode machine.opcode = some instruction :=
  (next?_of_running (running_of_next? next)).symm.trans next

/-! ### The program counter -/

theorem sizeOf_moments (machine : Machine Memory) (count : Nat) :
    ((machine.moments count).map fun moment => Instruction.sizeOf moment.opcode) =
      (machine.executed count).map Instruction.size := by
  have sized : ∀ moment ∈ machine.moments count,
      Instruction.sizeOf moment.opcode = (moment.next?.map Instruction.size).getD 0 := by
    intro moment member
    obtain ⟨instruction, next⟩ := Option.isSome_iff_exists.mp (next?_isSome_of_mem member)
    rw [Instruction.sizeOf, decode_of_next? next, next]
  calc ((machine.moments count).map fun moment => Instruction.sizeOf moment.opcode)
      = ((machine.moments count).map next?).map
          fun next => (next.map Instruction.size).getD 0 := by
        rw [List.map_map]
        exact List.map_congr_left sized
    _ = (machine.executed count).map Instruction.size := by
        rw [map_next?_moments, List.map_map]
        rfl

/-- A run over so many bytes of instructions has ended behind them, or else behind one more
byte, which it reports. -/
def EndsBehind (start : Address) (bytes : Nat) (result : Except Fault RunState × Machine Memory) :
    Prop :=
  match result with
  | (.ok _, final) => final.registers.pc = start + UInt16.ofNat bytes
  | (.error (.illegalOpcode _ address), final) =>
      address = start + UInt16.ofNat bytes ∧ final.registers.pc = address + 1

theorem EndsBehind.of_ok {start : Address} {bytes : Nat}
    {result : Except Fault RunState × Machine Memory} (ends : EndsBehind start bytes result)
    {state : RunState} (answered : result.1 = .ok state) :
    result.2.registers.pc = start + UInt16.ofNat bytes := by
  obtain ⟨answer, final⟩ := result
  cases answered
  exact ends

theorem EndsBehind.of_error {start : Address} {bytes : Nat}
    {result : Except Fault RunState × Machine Memory} (ends : EndsBehind start bytes result)
    {opcode : Byte} {address : Address}
    (faulted : result.1 = .error (.illegalOpcode opcode address)) :
    address = start + UInt16.ofNat bytes ∧
      result.2.registers.pc = start + UInt16.ofNat (bytes + 1) := by
  obtain ⟨answer, final⟩ := result
  cases faulted
  obtain ⟨reached, passed⟩ := ends
  refine ⟨reached, ?_⟩
  rw [passed, reached, UInt16.ofNat_add, ← UInt16.add_assoc]
  rfl

theorem EndsBehind.of_later {start : Address} {first later : Nat}
    {result : Except Fault RunState × Machine Memory}
    (ends : EndsBehind (start + UInt16.ofNat first) later result) :
    EndsBehind start (first + later) result := by
  unfold EndsBehind at ends ⊢
  rwa [UInt16.add_assoc, ← UInt16.ofNat_add] at ends

/-- Each instruction moves the rest of the run by its size. -/
theorem endsBehind_run (machine : Machine Memory) (budget : Nat) :
    EndsBehind machine.registers.pc ((machine.executed budget).map Instruction.size).sum
      (machine.run budget) := by
  induction budget generalizing machine with
  | zero => exact (UInt16.add_zero _).symm
  | succ budget ih =>
      cases state : machine.state with
      | halted =>
          rw [run_of_halted state, executed_of_halted state]
          exact (UInt16.add_zero _).symm
      | running =>
          rw [executed, next?_of_running state]
          cases decoded : Instruction.decode machine.opcode with
          | none =>
              have stepped := step_of_undecoded state decoded
              rw [run_succ_of_stopped (by simp [stepped]), stepped,
                executed_of_halted rfl]
              exact ⟨(UInt16.add_zero _).symm, rfl⟩
          | some instruction =>
              have stepped := step_of_decoded state decoded
              rw [Option.toList_some, List.cons_append, List.nil_append, List.map_cons,
                List.sum_cons]
              apply EndsBehind.of_later
              rw [← Instruction.after_pc]
              cases goes : instruction.stateAfter with
              | halted =>
                  rw [run_succ_of_stopped (by simp [stepped, goes]), stepped, goes,
                    executed_of_halted goes]
                  exact (UInt16.add_zero _).symm
              | running =>
                  rw [goes] at stepped
                  rw [run_succ_of_running stepped, stepped]
                  exact ih (instruction.after machine)

theorem toNat_add_ofNat (start : Address) (bytes : Nat) :
    (start + UInt16.ofNat bytes).toNat = (start.toNat + bytes) % 65536 :=
  Registers.toNat_pc_advance { pc := start } bytes

/-- Where a moment stands: behind all that was executed before it. -/
theorem pc_moment {count index : Nat} (lt : index < (machine.moments count).length) :
    (machine.after index).registers.pc =
      machine.registers.pc +
        UInt16.ofNat (((machine.executed count).map Instruction.size).take index).sum := by
  obtain ⟨instruction, next⟩ := Option.isSome_iff_exists.mp (next?_isSome_of_lt lt)
  have ends := machine.endsBehind_run index
  rw [run_of_running (running_of_next? next)] at ends
  rw [← List.map_take, executed_take lt]
  exact ends

/-- The program counter accounts for every byte that a run passes. Each counted opcode was
fetched behind the instructions before it, with the bytes that stood there at that moment, and
the run ends behind all of them or reports the byte that it finds there. -/
theorem pc_moves_by_sizes (machine : Machine Memory) (budget : Nat) :
    let moments := machine.moments budget
    let start := machine.registers.pc.toNat
    let sizes := moments.map fun moment => Instruction.sizeOf moment.opcode
    let final := (machine.run budget).2
    final.steps = machine.steps + UInt64.ofNat moments.length ∧
    (∀ state, (machine.run budget).1 = .ok state →
      final.registers.pc.toNat = (start + sizes.sum) % 65536) ∧
    (∀ opcode address, (machine.run budget).1 = .error (.illegalOpcode opcode address) →
      address.toNat = (start + sizes.sum) % 65536 ∧
        final.registers.pc.toNat = (start + sizes.sum + 1) % 65536) ∧
    ∀ index (lt : index < moments.length),
      moments[index] = machine.after index ∧
        (Instruction.decode moments[index].opcode).isSome ∧
        moments[index].registers.pc.toNat = (start + (sizes.take index).sum) % 65536 := by
  intro moments start sizes final
  have total : sizes = (machine.executed budget).map Instruction.size :=
    machine.sizeOf_moments budget
  have ends := machine.endsBehind_run budget
  rw [← total] at ends
  refine ⟨?_, ?_, ?_, ?_⟩
  · rw [show final = machine.after budget from run_snd machine budget, steps_after,
      ← length_moments]
  · intro state answered
    rw [ends.of_ok answered]
    exact toNat_add_ofNat _ _
  · intro opcode address faulted
    obtain ⟨reached, passed⟩ := ends.of_error faulted
    rw [passed, reached]
    exact ⟨toNat_add_ofNat _ _, toNat_add_ofNat _ _⟩
  · intro index lt
    obtain ⟨instruction, next⟩ := Option.isSome_iff_exists.mp (next?_isSome_of_lt lt)
    rw [getElem_moments lt, pc_moment lt, ← total, decode_of_next? next]
    exact ⟨rfl, rfl, toNat_add_ofNat _ _⟩

private theorem moments_store_increment (machine : Machine Memory)
    (registers : machine.registers = { pc := 0xFFFE, x := 0xE8 })
    (state : machine.state = .running)
    (code : machine.bus.read 0xFFFE = 0x86 ∧ machine.bus.read 0xFFFF = 0x00 ∧
      machine.bus.read 0x0001 = 0xEA) :
    (machine.moments 5).map opcode = [0x86, 0xE8] ∧
      (machine.run 5).1 = .error (.illegalOpcode 0xEA 0x0001) := by
  obtain ⟨_, _, steps, memory, journal⟩ := machine
  subst registers state
  simp [code, moments, List.range_succ, after, opcode, next?, run, step, Memory.read_write,
    Instruction.decode, Instruction.execute, Mode.resolve, Registers.advance,
    Mode.operandBytes, Registers.loadX, Registers.setZeroNegative]

/-- A store at the top of memory replaces a load of three bytes at the bottom by an increment,
and the run counts the byte that it fetched. -/
theorem pc_moves_by_sizes_rewritten :
    let code := ((Memory.zero.write 0xFFFE 0x86).write 0x0000 0xAD).write 0x0001 0xEA
    let machine : Machine Memory := ⟨{ pc := 0xFFFE, x := 0xE8 }, .running, 0,
      code, .silent⟩
    (machine.moments 5).map opcode = [0x86, 0xE8] ∧
      (machine.run 5).1 = .error (.illegalOpcode 0xEA 0x0001) ∧
      (machine.run 5).2.registers.pc.toNat = (0xFFFE + (2 + 1) + 1) % 65536 ∧
      ∃ lt : 1 < (machine.moments 5).length,
        (machine.moments 5)[1].registers.pc.toNat = (0xFFFE + 2) % 65536 := by
  intro code machine
  obtain ⟨opcodes, faulted⟩ := moments_store_increment machine rfl rfl
    (by simp [machine, code, Memory.read_write])
  have start : machine.registers.pc.toNat = 0xFFFE := rfl
  clear_value machine
  have sizes : ((machine.moments 5).map fun moment => Instruction.sizeOf moment.opcode) =
      [2, 1] := by
    change (machine.moments 5).map (Instruction.sizeOf ∘ opcode) = [2, 1]
    rw [← List.map_map, opcodes]
    rfl
  have length : (machine.moments 5).length = 2 := by
    rw [← List.length_map opcode, opcodes]
    rfl
  obtain ⟨_, _, ends, moments⟩ := pc_moves_by_sizes machine 5
  rw [sizes, start] at ends moments
  exact ⟨opcodes, faulted, (ends _ _ faulted).2, by omega, (moments 1 (by omega)).2.2⟩

end Machine

end Cpu6502
