/-
Memory as the replay of stores. What a run leaves in memory is what stood there before with the
stores that it executed written over it, each once, in their order and where it led at its
moment. So every byte is the one that was stored there last, or the first one.
-/

import Cpu6502.Proofs.Cycle
import Cpu6502.Proofs.Moments
import Mathlib.Data.FinEnum

namespace Cpu6502

/-- Memory after writes that are made one after another. -/
def Memory.replay (memory : Memory) (stores : List (Address × Byte)) : Memory :=
  stores.foldl (fun written (target, value) => written.write target value) memory

theorem Memory.replay_append (memory : Memory) (first second : List (Address × Byte)) :
    memory.replay (first ++ second) = (memory.replay first).replay second :=
  List.foldl_append

theorem Memory.read_replay_of_spared (memory : Memory) {stores : List (Address × Byte)}
    {address : Address} (spared : address ∉ stores.map Prod.fst) :
    (memory.replay stores).read address = memory.read address := by
  induction stores generalizing memory with
  | nil => rfl
  | cons store rest ih =>
      rw [List.map_cons, List.mem_cons, not_or] at spared
      exact (ih (memory.write store.1 store.2) spared.2).trans
        (Memory.read_write_of_ne memory store.2 (Ne.symm spared.1))

/-- The addresses at which two memories differ. -/
def Memory.differing (before after : Memory) : Finset Address :=
  Finset.univ.filter fun address => after.read address ≠ before.read address

/-- Each write changes one byte at most. -/
theorem Memory.card_differing_replay_le (memory : Memory) (stores : List (Address × Byte)) :
    (memory.differing (memory.replay stores)).card ≤ stores.length := by
  have within : memory.differing (memory.replay stores) ⊆ (stores.map Prod.fst).toFinset := by
    intro address differs
    rw [differing, Finset.mem_filter] at differs
    rw [List.mem_toFinset]
    by_contra spared
    exact differs.2 (memory.read_replay_of_spared spared)
  calc (memory.differing (memory.replay stores)).card
      ≤ (stores.map Prod.fst).toFinset.card := Finset.card_le_card within
    _ ≤ (stores.map Prod.fst).length := List.toFinset_card_le _
    _ = stores.length := List.length_map _

instance (instruction : Instruction) : Decidable instruction.Stores :=
  inferInstanceAs (Decidable (_ ∨ _))

namespace Machine

/-- The next step stores a register at an address: which one, the mnemonic says, and where, the
operand as it is resolved before that step. -/
def StoresTo (machine : Machine Memory) (address : Address) (value : Byte) : Prop :=
  ∃ instruction, machine.next? = some instruction ∧
    machine.target instruction.mode = address ∧
    (instruction.mnemonic = .sta ∧ value = machine.registers.a ∨
      instruction.mnemonic = .stx ∧ value = machine.registers.x)

variable {machine : Machine Memory}

theorem store?_of_next?_none (nothing : machine.next? = none) : machine.store? = none :=
  store?_of_not_stores (by simp [nothing])

theorem store?_of_next?_some {instruction : Instruction}
    (next : machine.next? = some instruction) :
    machine.store? =
      (instruction.stored? machine).map fun value =>
        (machine.target instruction.mode, value) :=
  store?_of_decoded (running_of_next? next) (decode_of_next? next)

theorem store?_eq_some_iff {address : Address} {value : Byte} :
    machine.store? = some (address, value) ↔ machine.StoresTo address value := by
  unfold StoresTo
  cases next : machine.next? with
  | none => simp [store?_of_next?_none next]
  | some instruction =>
      rw [store?_of_next?_some next]
      unfold Instruction.stored?
      cases named : instruction.mnemonic <;> simp [named, eq_comm]

/-- The stores that the first `count` steps execute, in their order. -/
def stores (machine : Machine Memory) (count : Nat) : List (Address × Byte) :=
  (machine.moments count).filterMap store?

theorem stores_add_one (machine : Machine Memory) (count : Nat) :
    machine.stores (count + 1) =
      machine.stores count ++ (machine.after count).store?.toList := by
  rw [stores]
  cases next : (machine.after count).next? with
  | none =>
      rw [moments_add_one_of_none next, store?_of_next?_none next, Option.toList_none,
        List.append_nil]
      rfl
  | some instruction =>
      rw [moments_add_one_of_some next, List.filterMap_append]
      cases stored : (machine.after count).store? <;> simp [stores, stored]

/-- Memory after a run: every store is made, once, and nothing else. -/
theorem bus_after (machine : Machine Memory) (count : Nat) :
    (machine.after count).bus = machine.bus.replay (machine.stores count) := by
  induction count with
  | zero => rfl
  | succ count ih =>
      rw [after_add_one, step_bus, stores_add_one, Memory.replay_append, ← ih]
      cases (machine.after count).store? <;> rfl

theorem length_stores (machine : Machine Memory) (count : Nat) :
    (machine.stores count).length =
      (machine.executed count).countP fun instruction => instruction.Stores := by
  induction count with
  | zero => rfl
  | succ count ih =>
      rw [stores_add_one, executed_add_one, List.length_append, List.countP_append, ih]
      congr 1
      cases next : (machine.after count).next? with
      | none =>
          rw [store?_of_next?_none next]
          rfl
      | some instruction =>
          rw [store?_of_next?_some next]
          unfold Instruction.stored?
          cases named : instruction.mnemonic <;> simp [Instruction.Stores, named]

/-- A byte is the last one stored there; without a store it is the first one. -/
theorem read_after (machine : Machine Memory) (count : Nat) (address : Address) :
    (∃ index < count, ∃ value,
      (machine.after index).StoresTo address value ∧
        (∀ later, index < later → later < count →
          ∀ other, ¬ (machine.after later).StoresTo address other) ∧
        (machine.after count).bus.read address = value) ∨
    (∀ index < count, ∀ value, ¬ (machine.after index).StoresTo address value) ∧
      (machine.after count).bus.read address = machine.bus.read address := by
  induction count with
  | zero => exact Or.inr ⟨fun index lt => absurd lt index.not_lt_zero, rfl⟩
  | succ count ih =>
      by_cases stored : ∃ value, (machine.after count).StoresTo address value
      · obtain ⟨value, stores⟩ := stored
        refine Or.inl ⟨count, count.lt_succ_self, value, stores, ?_, ?_⟩
        · intro later lt le
          omega
        · rw [after_add_one, step_bus, store?_eq_some_iff.mpr stores]
          exact Memory.read_write_same _ _ _
      · have kept : (machine.after (count + 1)).bus.read address =
            (machine.after count).bus.read address := by
          rw [after_add_one]
          apply read_step_of_not_stored
          rintro target value stores rfl
          exact stored ⟨value, store?_eq_some_iff.mp stores⟩
        rw [kept]
        rcases ih with ⟨index, lt, value, stores, last, read⟩ | ⟨never, read⟩
        · refine Or.inl ⟨index, Nat.lt_succ_of_lt lt, value, stores, ?_, read⟩
          intro later after before other again
          rcases Nat.lt_succ_iff_lt_or_eq.mp before with earlier | rfl
          · exact last later after earlier other again
          · exact stored ⟨other, again⟩
        · refine Or.inr ⟨?_, read⟩
          intro index before value stores
          rcases Nat.lt_succ_iff_lt_or_eq.mp before with earlier | rfl
          · exact never index earlier value stores
          · exact stored ⟨value, stores⟩

/-- Memory after a run is what its stores make of the memory before. Each byte is what the last
store to it put there, as that store found the register, the operand and the pointer; steps that
store nothing change nothing; and no more bytes change than stores are executed. -/
theorem memory_replays_stores (machine : Machine Memory) (budget : Nat) :
    let final := (machine.run budget).2
    (∀ address,
      (∃ index < budget, ∃ value,
        (machine.after index).StoresTo address value ∧
          (∀ later, index < later → later < budget →
            ∀ other, ¬ (machine.after later).StoresTo address other) ∧
          final.bus.read address = value) ∨
      (∀ index < budget, ∀ value, ¬ (machine.after index).StoresTo address value) ∧
        final.bus.read address = machine.bus.read address) ∧
    (∀ index, (∀ instruction ∈ (machine.after index).next?, ¬ instruction.Stores) →
      (machine.after (index + 1)).bus = (machine.after index).bus) ∧
    final.bus = machine.bus.replay (machine.stores budget) ∧
    (machine.stores budget).length =
      ((machine.executed budget).countP fun instruction => instruction.Stores) ∧
    (machine.bus.differing final.bus).card ≤
      (machine.executed budget).countP fun instruction => instruction.Stores := by
  intro final
  have reached : final = machine.after budget := run_snd machine budget
  rw [reached]
  refine ⟨machine.read_after budget, ?_, machine.bus_after budget, machine.length_stores budget,
    ?_⟩
  · intro index quiet
    rw [after_add_one]
    exact bus_step_of_not_stores quiet
  · rw [bus_after, ← length_stores]
    exact machine.bus.card_differing_replay_le _

private theorem stores_operand_rewritten (machine : Machine Memory)
    (registers : machine.registers = { a := 7, x := 0x10 }) (state : machine.state = .running)
    (code : machine.bus.read 0 = 0x86 ∧ machine.bus.read 1 = 0x03 ∧
      machine.bus.read 2 = 0x85 ∧ machine.bus.read 4 = 0x00) :
    machine.stores 2 = [(0x03, 0x10), (0x10, 7)] ∧
      (machine.after 2).next? = some ⟨.ret, .implicit⟩ := by
  obtain ⟨_, _, steps, memory, journal⟩ := machine
  subst registers state
  simp [code, stores, moments, List.range_succ, after, next?, store?, opcode, target,
    effectiveAddress, Instruction.stored?, step, Memory.read_write, Instruction.decode,
    Instruction.execute, Mode.resolve, Registers.advance, Mode.operandBytes]

/-- The first store goes over the operand of the second one, which leads elsewhere from then
on. -/
theorem memory_replays_stores_rewritten :
    let code := ((Memory.zero.write 0 0x86).write 1 0x03).write 2 0x85
    let machine : Machine Memory := ⟨{ a := 7, x := 0x10 }, .running, 0, code, .silent⟩
    machine.stores 2 = [(0x03, 0x10), (0x10, 7)] ∧ (machine.run 2).2.bus.read 0x10 = 7 ∧
      (machine.run 2).2.bus.read 0x00 = 0x86 ∧
      (machine.bus.differing (machine.run 2).2.bus).card ≤ 2 ∧
      (machine.after 3).bus = (machine.after 2).bus := by
  intro code machine
  have first : machine.bus.read 0x00 = 0x86 := by simp [machine, code, Memory.read_write]
  obtain ⟨stores, next⟩ := stores_operand_rewritten machine rfl rfl
    (by simp [machine, code, Memory.read_write])
  clear_value machine
  obtain ⟨_, quiet, bus, length, changed⟩ := memory_replays_stores machine 2
  rw [← length, stores] at changed
  rw [stores] at bus
  refine ⟨stores, ?_, ?_, changed, quiet 2 ?_⟩
  · rw [bus]
    exact Memory.read_write_same _ _ _
  · rw [bus]
    simp [Memory.replay, Memory.read_write, first]
  · simp [next, Instruction.Stores]

end Machine

end Cpu6502
