/-
A program that runs off the end of its image halts. Behind an image there are cleared bytes
and the bytes of the reset vector. None of them lets a machine go on, and no instruction is
long enough to pass three of them, so unless the program stores there, it is stopped after
at most one more step than the image has bytes.
-/

import Cpu6502.Proofs.Accounting
import Cpu6502.Proofs.Load
import Cpu6502.Proofs.Step
import Mathlib.Tactic.IntervalCases

namespace Cpu6502

/-- A byte on which a running machine halts. -/
def Stops (opcode : Byte) : Prop :=
  ∀ instruction, Instruction.decode opcode = some instruction → instruction.mnemonic = .ret

theorem Instruction.size_pos (instruction : Instruction) : 0 < instruction.size :=
  Nat.succ_pos _

theorem Instruction.size_le_three (instruction : Instruction) : instruction.size ≤ 3 := by
  unfold Instruction.size
  cases instruction.mode <;> decide

/-! ### The way to the end -/

/-- A store of the next step misses the three bytes behind an image of this length. -/
def Machine.SparesEnd (machine : Machine Memory) (length : Nat) : Prop :=
  ∀ target value, machine.store? = some (target, value) →
    ∀ offset < 3, target ≠ windowAddress (length + offset)

/-- A machine that has passed at least `count` bytes of an image and not its guards. -/
structure Inside (length count : Nat) (machine : Machine Memory) : Prop where
  running : machine.state = .running
  position : ∃ offset, count ≤ offset ∧ offset < length + 3 ∧
    machine.registers.pc = windowAddress offset
  guarded : ∀ offset < 3, Stops (machine.bus.read (windowAddress (length + offset)))

/-- On one of the three bytes behind the image the machine would have stopped. -/
theorem Inside.step {length count : Nat} {machine : Machine Memory}
    (inside : Inside length count machine) (spares : machine.SparesEnd length)
    (goes : machine.step.2.state = .running) :
    count < length ∧ Inside length (count + 1) machine.step.2 := by
  obtain ⟨offset, passed, within, atOffset⟩ := inside.position
  obtain ⟨instruction, decoded, ordinary, moved⟩ :=
    Machine.pc_step_of_running goes inside.running
  have before : offset < length := by
    by_contra beyond
    have stops := inside.guarded (offset - length) (by omega)
    rw [Nat.add_sub_cancel' (Nat.not_lt.mp beyond), ← atOffset] at stops
    exact ordinary (stops instruction decoded)
  have sizeBound := instruction.size_le_three
  have sizePositive := instruction.size_pos
  refine ⟨by omega, goes, ⟨offset + instruction.size, by omega, by omega, ?_⟩, ?_⟩
  · rw [moved, atOffset, windowAddress_add]
  · intro guard near
    have kept : machine.step.2.bus.read (windowAddress (length + guard)) =
        machine.bus.read (windowAddress (length + guard)) :=
      Machine.read_step_of_not_stored fun target value stored =>
        spares target value stored guard near
    rw [kept]
    exact inside.guarded guard near

theorem Inside.after {length : Nat} {machine : Machine Memory} (inside : Inside length 0 machine)
    (spares : ∀ count ≤ length, (machine.after count).SparesEnd length) {count : Nat}
    (running : (machine.after count).state = .running) :
    count ≤ length ∧ Inside length count (machine.after count) := by
  induction count with
  | zero => exact ⟨length.zero_le, inside⟩
  | succ count ih =>
      obtain ⟨le, before⟩ := ih (Machine.running_of_after_running running count.le_succ)
      rw [Machine.after_add_one] at running ⊢
      exact before.step (spares count le) running

/-- Every step passes a byte, so the image is used up. -/
theorem Inside.haltsAfter {length : Nat} {machine : Machine Memory}
    (inside : Inside length 0 machine)
    (spares : ∀ count ≤ length, (machine.after count).SparesEnd length) :
    ∃ count ≤ length, machine.HaltsAfter count := by
  rcases Machine.haltsAfter_or_running inside.running with ⟨count, halts⟩ | runs
  · exact ⟨count, (inside.after spares halts.1).1, halts⟩
  · have impossible := (inside.after spares (runs (length + 1))).1
    omega

/-! ### A loaded image -/

/-- Only zero bytes and the vector stand behind an image over cleared memory. -/
theorem Memory.stops_behind_image (image : List Byte) (fits : image.length ≤ programCapacity)
    (offset : Nat) (near : offset < 3) :
    Stops ((Memory.zero.withImage image).read (windowAddress (image.length + offset))) := by
  have bound : image.length + offset < 65536 := by
    unfold programCapacity at fits
    omega
  have outside : image[image.length + offset]? = none :=
    List.getElem?_eq_none (Nat.le_add_right _ _)
  rw [Memory.read_withImage _ _ _ fits, windowAddress_sub _ bound, outside, Option.getD_none,
    Memory.read_zero]
  intro instruction decoded
  split at decoded
  · cases decoded
    rfl
  · split at decoded
    · cases decoded
    · cases decoded
      rfl

theorem inside_loaded (image : List Byte) (fits : image.length ≤ programCapacity)
    (journal : Journal) :
    Inside image.length 0 ((Machine.powerOn Memory.zero journal).loaded image) where
  running := rfl
  position := ⟨0, Nat.le_refl 0, Nat.succ_pos _, rfl⟩
  guarded := Memory.stops_behind_image image fits

/-- A program that leaves the three bytes behind its image alone halts after at most one more
step than the image has bytes, and at most as many instructions if it faults. -/
theorem Machine.loaded_image_halts (image : List Byte) (fits : image.length ≤ programCapacity)
    (journal : Journal)
    (spares : ∀ count ≤ image.length, ∀ target value,
      (((powerOn Memory.zero journal).load image).2.after count).store? = some (target, value) →
        ∀ offset < 3, target ≠ programStart + UInt16.ofNat (image.length + offset)) :
    let machine := ((powerOn Memory.zero journal).load image).2
    ((powerOn Memory.zero journal).load image).1 = .ok () ∧
      (machine.run (image.length + 1)).1 ≠ .ok .running ∧
      ∃ answer final,
        (∀ bound, image.length < bound → machine.runToHalt bound = some (answer, final)) ∧
        (∀ budget, image.length < budget → (machine.run budget).2 = final) ∧
        final.state = .halted ∧ final.steps.toNat ≤ image.length + 1 ∧
        ∀ fault, answer = .error fault → final.steps.toNat ≤ image.length := by
  rw [load_of_fits _ fits] at spares ⊢
  obtain ⟨count, le, halts⟩ := (inside_loaded image fits journal).haltsAfter spares
  have unwrapped : ((powerOn Memory.zero journal).loaded image).Unwrapped (count + 1) := by
    apply unwrapped_of_lt
    change 0 + (count + 1) < UInt64.size
    unfold programCapacity at fits
    unfold UInt64.size
    omega
  have zero : ((powerOn Memory.zero journal).loaded image).steps.toNat = 0 := rfl
  refine ⟨rfl, (halts.run_ne_running_iff _).mpr (by omega), _, _,
    fun bound lt => halts.runToHalt_eq (by omega), ?_, halts.2, ?_, ?_⟩
  · intro budget lt
    rw [run_snd, halts.after_eq (by omega)]
  · rcases halts.toNat_steps unwrapped with ⟨_, steps⟩ | ⟨_, _, steps⟩ <;> omega
  · intro fault answer
    have faulted := (halts.haltAnswer_eq_error_iff fault).mp answer
    rcases halts.toNat_steps unwrapped with ⟨returned, _⟩ | ⟨_, _, steps⟩
    · rw [returned] at faulted
      cases faulted
    · omega

/-- The image of one store to page zero: what follows it in memory returns. -/
theorem Machine.loaded_image_halts_after_store :
    let image : List Byte := [0x86, 0x10]
    let machine := ((powerOn Memory.zero .silent).load image).2
    image.length ≤ programCapacity ∧
    (∀ count ≤ image.length, ∀ target value,
      (machine.after count).store? = some (target, value) →
        ∀ offset < 3, target ≠ programStart + UInt16.ofNat (image.length + offset)) ∧
    (machine.run 3).1 ≠ .ok .running ∧
    ∃ answer final, (∀ bound, 2 < bound → machine.runToHalt bound = some (answer, final)) ∧
      final.steps.toNat ≤ 3 := by
  intro image machine
  have fits : image.length ≤ programCapacity := by decide
  have loaded : ((powerOn Memory.zero .silent).load image).2 = machine := rfl
  have unfolded : machine = (powerOn Memory.zero .silent).loaded image :=
    congrArg Prod.snd (load_of_fits _ fits)
  clear_value machine
  have byte (address : Address) : machine.bus.read address =
      if address = 0xFFFC then 0x00
      else if address = 0xFFFD then 0x80
      else (image[(address - programStart).toNat]?).getD 0 := by
    have placed := Memory.read_withImage Memory.zero image address fits
    rw [Memory.read_zero] at placed
    rw [unfolded]
    exact placed
  have start : machine.registers.pc = 0x8000 := by
    rw [unfolded]
    rfl
  have running : machine.state = .running := by
    rw [unfolded]
    rfl
  have decoded : Instruction.decode machine.opcode = some ⟨.stx, .zeroPage⟩ := by
    rw [opcode, start, byte]
    rfl
  have onlyStore : ∀ address value, machine.store? = some (address, value) → address = 0x0010 := by
    intro address value stored
    have same : machine.target .zeroPage = address := by
      rw [store?_of_decoded running decoded] at stored
      exact congrArg Prod.fst (Option.some.inj stored)
    rw [← same]
    change (machine.bus.read (machine.registers.pc + 1)).toUInt16 = 0x0010
    rw [start, byte]
    rfl
  have stepped : machine.after 1 = (⟨.stx, .zeroPage⟩ : Instruction).after machine := by
    rw [after_add_one, after_zero, step_of_decoded running decoded]
  have going : (machine.after 1).state = .running := by
    rw [stepped]
    rfl
  have returns : Instruction.decode (machine.after 1).opcode = some ⟨.ret, .implicit⟩ := by
    have next : (machine.after 1).registers.pc = 0x8002 := by
      rw [stepped, Instruction.after_pc, start]
      rfl
    have kept : (machine.after 1).bus.read 0x8002 = machine.bus.read 0x8002 := by
      rw [after_add_one, after_zero]
      apply read_step_of_not_stored
      intro address value stored
      rw [onlyStore address value stored]
      decide
    rw [opcode, next, kept, byte]
    rfl
  have halted : (machine.after 2).state = .halted := by
    rw [after_add_one, step_of_decoded going returns]
    rfl
  have spares : ∀ count ≤ image.length, ∀ target value,
      (machine.after count).store? = some (target, value) →
        ∀ offset < 3, target ≠ programStart + UInt16.ofNat (image.length + offset) := by
    intro count le address value stored offset near
    rcases count with _ | _ | _ | _
    · rw [onlyStore address value stored]
      interval_cases offset <;> decide
    · rw [store?_of_decoded going returns] at stored
      cases stored
    · rw [store?_of_halted halted] at stored
      cases stored
    · exact absurd le (by simp [image])
  have halts := loaded_image_halts image fits .silent (by rw [loaded]; exact spares)
  rw [loaded] at halts
  obtain ⟨_, stops, answer, final, settles, _, _, bound, _⟩ := halts
  exact ⟨fits, spares, stops, answer, final, settles, bound⟩

end Cpu6502
