/-
The footprint of a run: the addresses that it reads before it has written them. Two memories
that agree there cannot be told apart by the run, whatever code, pointers or data it rewrites
on the way.
-/

import Cpu6502.Memory
import Cpu6502.Proofs.Dialogue

namespace Cpu6502

def Written (accesses : List Access) (address : Address) : Prop :=
  ∃ value, .write address value ∈ accesses

/-- The address is read at a time when nothing has been written to it. -/
def ReadFirst (accesses : List Access) (address : Address) : Prop :=
  ∃ earlier value later, accesses = earlier ++ .read address value :: later ∧
    ¬ Written earlier address

section

variable {target address : Address} {value : Byte} {rest : List Access}

theorem not_written_nil : ¬ Written [] address := by
  intro written
  obtain ⟨value, member⟩ := written
  cases member

theorem written_read_cons : Written (.read target value :: rest) address ↔ Written rest address := by
  simp [Written]

theorem written_write_cons :
    Written (.write target value :: rest) address ↔ target = address ∨ Written rest address := by
  simp only [Written, List.mem_cons, Access.write.injEq]
  constructor
  · intro written
    rcases written with ⟨_, ⟨same, _⟩ | member⟩
    · exact Or.inl same.symm
    · exact Or.inr ⟨_, member⟩
  · intro held
    rcases held with same | ⟨stored, member⟩
    · exact ⟨value, Or.inl ⟨same.symm, rfl⟩⟩
    · exact ⟨stored, Or.inr member⟩

theorem readFirst_read_cons :
    ReadFirst (.read target value :: rest) address ↔
      target = address ∨ ReadFirst rest address := by
  constructor
  · intro first
    obtain ⟨earlier, seen, later, split, unwritten⟩ := first
    cases earlier with
    | nil =>
        cases split
        exact Or.inl rfl
    | cons access earlier =>
        cases split
        exact Or.inr ⟨earlier, seen, later, rfl, mt written_read_cons.mpr unwritten⟩
  · intro held
    rcases held with rfl | ⟨earlier, seen, later, rfl, unwritten⟩
    · exact ⟨[], value, rest, rfl, not_written_nil⟩
    · exact ⟨.read target value :: earlier, seen, later, rfl, mt written_read_cons.mp unwritten⟩

theorem readFirst_write_cons :
    ReadFirst (.write target value :: rest) address ↔
      target ≠ address ∧ ReadFirst rest address := by
  constructor
  · intro first
    obtain ⟨earlier, seen, later, split, unwritten⟩ := first
    cases earlier with
    | nil => cases split
    | cons access earlier =>
        cases split
        rw [written_write_cons, not_or] at unwritten
        exact ⟨unwritten.1, earlier, seen, later, rfl, unwritten.2⟩
  · intro held
    obtain ⟨different, earlier, seen, later, rfl, unwritten⟩ := held
    refine ⟨.write target value :: earlier, seen, later, rfl, ?_⟩
    rw [written_write_cons, not_or]
    exact ⟨different, unwritten⟩

end

namespace Dialogue

variable {α : Type}

theorem read_hold_of_not_written (dialogue : Dialogue α) (memory : Memory) {address : Address}
    (unwritten : ¬ Written (dialogue.accesses memory) address) :
    (dialogue.hold memory).2.read address = memory.read address := by
  induction dialogue generalizing memory with
  | done result => rfl
  | read target next ih => exact ih _ memory (mt written_read_cons.mpr unwritten)
  | write target value next ih =>
      have later := ih (memory.write target value)
        fun written => unwritten (written_write_cons.mpr (Or.inr written))
      have different : target ≠ address :=
        fun same => unwritten (written_write_cons.mpr (Or.inl same))
      exact later.trans (Memory.read_write_of_ne memory value different)
  | note record next ih => exact ih memory unwritten

/-- On memories that agree where the first dialogue reads first, the dialogues are the same.
Bytes that agree go on agreeing, and bytes that are written agree from then on. -/
theorem hold_agree (dialogue : Dialogue α) (left right : Memory)
    (agree : ∀ address, ReadFirst (dialogue.accesses left) address →
      left.read address = right.read address) :
    (dialogue.hold left).1 = (dialogue.hold right).1 ∧
      dialogue.accesses left = dialogue.accesses right ∧
      ∀ address,
        left.read address = right.read address ∨ Written (dialogue.accesses left) address →
          (dialogue.hold left).2.read address = (dialogue.hold right).2.read address := by
  induction dialogue generalizing left right with
  | done result =>
      refine ⟨rfl, rfl, ?_⟩
      intro address held
      rcases held with same | written
      · exact same
      · exact absurd written not_written_nil
  | read target next ih =>
      have same : left.read target = right.read target :=
        agree target (readFirst_read_cons.mpr (Or.inl rfl))
      obtain ⟨result, accesses, kept⟩ := ih (left.read target) left right
        fun address first => agree address (readFirst_read_cons.mpr (Or.inr first))
      change ((next (left.read target)).hold left).1 = ((next (right.read target)).hold right).1 ∧
        .read target (left.read target) :: (next (left.read target)).accesses left =
          .read target (right.read target) :: (next (right.read target)).accesses right ∧ _
      rw [← same]
      refine ⟨result, congrArg (List.cons (Access.read target (left.read target))) accesses, ?_⟩
      intro address held
      have later := kept address (held.imp_right written_read_cons.mp)
      change ((next (left.read target)).hold left).2.read address =
        ((next (right.read target)).hold right).2.read address
      rw [← same]
      exact later
  | write target value next ih =>
      have stored : ∀ address, left.read address = right.read address ∨ target = address →
          (left.write target value).read address = (right.write target value).read address := by
        intro address held
        rw [Memory.read_write, Memory.read_write]
        by_cases same : target = address
        · rw [if_pos same, if_pos same]
        · rw [if_neg same, if_neg same]
          exact held.resolve_right same
      obtain ⟨result, accesses, kept⟩ := ih (left.write target value) (right.write target value)
        (by
          intro address first
          apply stored
          by_cases same : target = address
          · exact Or.inr same
          · exact Or.inl (agree address (readFirst_write_cons.mpr ⟨same, first⟩)))
      refine ⟨result, congrArg (List.cons (Access.write target value)) accesses, ?_⟩
      intro address held
      apply kept
      rcases held with same | written
      · exact Or.inl (stored address (Or.inl same))
      · rcases written_write_cons.mp written with same | later
        · exact Or.inl (stored address (Or.inr same))
        · exact Or.inr later
  | note record next ih => exact ih left right agree

end Dialogue

namespace Machine

/-- To keep the accesses changes nothing about a run. -/
theorem run_traced {σ : Type u} [Bus σ] (machine : Machine σ) (budget : Nat) :
    (machine.traced.run budget).1 = (machine.run budget).1 ∧
      (machine.traced.run budget).2.processor = (machine.run budget).2.processor ∧
      (machine.traced.run budget).2.bus.inner = (machine.run budget).2.bus := by
  obtain ⟨result, inner, _⟩ := (machine.processor.run budget).hold_traced ⟨machine.bus, #[]⟩
  rw [run_eq_engage, run_eq_engage]
  exact ⟨congrArg Prod.fst result, congrArg Prod.snd result, inner⟩

/-- Two machines that differ in memory outside the footprint of the first one's run make the
same run, and their memories stay apart only where neither of them has written. -/
theorem run_footprint (left right : Machine Memory) (budget : Nat)
    (registers : left.registers = right.registers) (state : left.state = right.state)
    (steps : left.steps = right.steps)
    (agree : ∀ address, ReadFirst (left.accesses budget) address →
      left.bus.read address = right.bus.read address) :
    (left.run budget).1 = (right.run budget).1 ∧
      (left.run budget).2.registers = (right.run budget).2.registers ∧
      (left.run budget).2.state = (right.run budget).2.state ∧
      (left.run budget).2.steps = (right.run budget).2.steps ∧
      left.accesses budget = right.accesses budget ∧
      (∀ address,
        ReadFirst (left.accesses budget) address ∨ Written (left.accesses budget) address →
          (left.run budget).2.bus.read address = (right.run budget).2.bus.read address) ∧
      ∀ address, ¬ Written (left.accesses budget) address →
        (left.run budget).2.bus.read address = left.bus.read address ∧
          (right.run budget).2.bus.read address = right.bus.read address := by
  have processor : left.processor = right.processor := by
    rw [Machine.processor, Machine.processor, registers, state, steps]
  rw [accesses_eq] at agree
  rw [accesses_eq, accesses_eq, run_eq_engage, run_eq_engage, ← processor]
  obtain ⟨result, accesses, kept⟩ :=
    (left.processor.run budget).hold_agree left.bus right.bus agree
  have answer := congrArg Prod.fst result
  have final := congrArg Prod.snd result
  refine ⟨answer, congrArg Processor.registers final, congrArg Processor.state final,
    congrArg Processor.steps final, accesses, ?_, ?_⟩
  · intro address held
    exact kept address (held.imp_left (agree address))
  · intro address unwritten
    refine ⟨(left.processor.run budget).read_hold_of_not_written left.bus unwritten, ?_⟩
    rw [accesses] at unwritten
    exact (left.processor.run budget).read_hold_of_not_written right.bus unwritten

/-- A store replaces the next opcode, so the byte that stood there does not matter. -/
theorem run_footprint_overwritten :
    let store := (Memory.zero.write 0 0x85).write 1 2
    let left : Machine Memory := ⟨{}, .running, 0, store.write 2 0xEA, .silent⟩
    let right : Machine Memory := ⟨{}, .running, 0, store.write 2 0xFF, .silent⟩
    left.registers = right.registers ∧ left.state = right.state ∧ left.steps = right.steps ∧
      (∀ address, ReadFirst (left.accesses 2) address →
        left.bus.read address = right.bus.read address) ∧
      (left.run 2).1 = (right.run 2).1 ∧
      (left.run 2).2.bus.read 2 = (right.run 2).2.bus.read 2 := by
  intro store left right
  have accesses : left.accesses 2 = [.read 0 0x85, .read 1 2, .write 2 0, .read 2 0] := by
    simp [left, store, accesses_eq, processor, Processor.run, Processor.step,
      Dialogue.accesses, Dialogue.bind, Instruction.dialogue, Mode.dialogue, Instruction.decode,
      Bus.read, Bus.write, Memory.read_write, Registers.advance, Mode.operandBytes]
  have agree : ∀ address, ReadFirst (left.accesses 2) address →
      left.bus.read address = right.bus.read address := by
    intro address first
    have different : 2 ≠ address := by
      intro same
      subst same
      rw [accesses] at first
      simp [readFirst_read_cons, readFirst_write_cons] at first
    exact (Memory.read_write_of_ne store 0xEA different).trans
      (Memory.read_write_of_ne store 0xFF different).symm
  obtain ⟨answer, _, _, _, _, kept, _⟩ := run_footprint left right 2 rfl rfl rfl agree
  refine ⟨rfl, rfl, rfl, agree, answer, kept 2 (Or.inr ⟨0, ?_⟩)⟩
  rw [accesses]
  decide

end Machine

end Cpu6502
