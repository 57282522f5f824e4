/-
Effective addresses in numbers. What an operand denotes is a number of bytes, index registers
and remainders alone: arithmetic in page zero is taken modulo 256 and all other arithmetic
modulo the size of the address space, while a pointer in page zero may have its high half
behind the page. Resolving an operand moves the program counter and changes nothing else.
-/

import Cpu6502.Proofs.Step

namespace Cpu6502

/-! ### Bytes and words as numbers -/

def Memory.byteAt (memory : Memory) (place : Nat) : Nat :=
  (memory.read (UInt16.ofNat place)).toNat

@[simp] theorem Memory.byteAt_toNat (memory : Memory) (address : Address) :
    memory.byteAt address.toNat = (memory.read address).toNat := by
  rw [byteAt, UInt16.ofNat_toNat]

theorem Memory.toNat_readWord (memory : Memory) (address : Address) :
    (Bus.readWord memory address).1.toNat =
      memory.byteAt address.toNat + 256 * memory.byteAt ((address.toNat + 1) % 65536) := by
  have next : (address + 1).toNat = (address.toNat + 1) % 65536 := UInt16.toNat_add address 1
  rw [← next, byteAt_toNat, byteAt_toNat]
  exact Address.toNat_ofBytes _ _

theorem Memory.toNat_readWord_pageZero (memory : Memory) (place : Byte) :
    (Bus.readWord memory place.toUInt16).1.toNat =
      memory.byteAt place.toNat + 256 * memory.byteAt (place.toNat + 1) := by
  have bound := place.toNat_lt
  rw [toNat_readWord, UInt8.toNat_toUInt16, Nat.mod_eq_of_lt (by omega)]

theorem Address.toNat_add_index (base : Address) (index : Byte) :
    (base + index.toUInt16).toNat = (base.toNat + index.toNat) % 65536 := by
  rw [UInt16.toNat_add, UInt8.toNat_toUInt16]

/-! ### What an operand denotes -/

/-- The number that the operand at the program counter denotes. A word there is read around the
end of the address space; a pointer is not read around the end of page zero. -/
def Mode.denoted (mode : Mode) (registers : Registers) (memory : Memory) : Nat :=
  let start := registers.pc.toNat
  let operand := memory.byteAt start
  let word := memory.byteAt start + 256 * memory.byteAt ((start + 1) % 65536)
  let pointed (place : Nat) := memory.byteAt place + 256 * memory.byteAt (place + 1)
  match mode with
  | .implicit | .immediate => start
  | .zeroPage => operand
  | .zeroPageX => (operand + registers.x.toNat) % 256
  | .zeroPageY => (operand + registers.y.toNat) % 256
  | .absolute => word
  | .absoluteX => (word + registers.x.toNat) % 65536
  | .absoluteY => (word + registers.y.toNat) % 65536
  | .indirectX => pointed ((operand + registers.x.toNat) % 256)
  | .indirectY => (pointed operand + registers.y.toNat) % 65536

theorem Mode.toNat_address (mode : Mode) (registers : Registers) (memory : Memory) :
    (mode.address registers memory).toNat = mode.denoted registers memory := by
  cases mode with
  | implicit | immediate => rfl
  | zeroPage | zeroPageX | zeroPageY =>
      simp [address, denoted, resolve]
  | absolute => exact memory.toNat_readWord registers.pc
  | absoluteX | absoluteY =>
      rw [denoted, ← memory.toNat_readWord registers.pc]
      exact Address.toNat_add_index _ _
  | indirectX =>
      have indexed := memory.toNat_readWord_pageZero (memory.read registers.pc + registers.x)
      rw [UInt8.toNat_add, ← memory.byteAt_toNat] at indexed
      exact indexed
  | indirectY =>
      have pointed := memory.toNat_readWord_pageZero (memory.read registers.pc)
      have indexed := Address.toNat_add_index
        (Bus.readWord memory (memory.read registers.pc).toUInt16).1 registers.y
      rw [pointed, ← memory.byteAt_toNat] at indexed
      exact indexed

theorem Mode.denoted_pageZero_le {mode : Mode} (registers : Registers) (memory : Memory)
    (pageZero : mode = .zeroPage ∨ mode = .zeroPageX ∨ mode = .zeroPageY) :
    mode.denoted registers memory ≤ 0xFF := by
  have operand := (memory.read (UInt16.ofNat registers.pc.toNat)).toNat_lt
  rcases pageZero with rfl | rfl | rfl
  · exact Nat.le_of_lt_succ operand
  · exact Nat.le_of_lt_succ (Nat.mod_lt _ (by decide))
  · exact Nat.le_of_lt_succ (Nat.mod_lt _ (by decide))

namespace Machine

/-- Resolving an operand answers the number that it denotes and moves the program counter past
it; the machine is otherwise as before. -/
theorem effectiveAddress_denotes (machine : Machine Memory) (mode : Mode) :
    let address := (machine.effectiveAddress mode).1
    let next := (machine.effectiveAddress mode).2
    address.toNat = mode.denoted machine.registers machine.bus ∧
      next.registers.pc.toNat = (machine.registers.pc.toNat + mode.operandBytes) % 65536 ∧
      next = { machine with registers := { machine.registers with pc := next.registers.pc } } ∧
      (mode = .zeroPage ∨ mode = .zeroPageX ∨ mode = .zeroPageY → address.toNat ≤ 0xFF) := by
  intro address next
  have denoted : address.toNat = mode.denoted machine.registers machine.bus :=
    mode.toNat_address machine.registers machine.bus
  have moved : next =
      { machine with registers := machine.registers.advance mode.operandBytes } := by
    change (machine.effectiveAddress mode).2 = _
    rw [effectiveAddress, Mode.resolve_memory]
  refine ⟨denoted, ?_, ?_, ?_⟩
  · rw [moved]
    exact machine.registers.toNat_pc_advance _
  · rw [moved]
    rfl
  · intro pageZero
    rw [denoted]
    exact Mode.denoted_pageZero_le _ _ pageZero

/-- The operand stands at the top of memory, and its pointer reaches over the end of page
zero. -/
theorem effectiveAddress_denotes_page_end :
    let code := (Memory.zero.write 0xFFFF 0xFE).write 0x00FF 0x78
    let machine : Machine Memory :=
      ⟨{ pc := 0xFFFF, x := 0x01 }, .halted, 3, (code.write 0x0100 0x12).write 0x0000 0x56,
        .silent⟩
    (machine.effectiveAddress .indirectX).1.toNat = 0x1278 ∧
      (machine.effectiveAddress .zeroPageX).1.toNat = 0xFF ∧
      (machine.effectiveAddress .absolute).1.toNat = 0x56FE ∧
      (machine.effectiveAddress .absolute).2.registers.pc.toNat = 0x0001 ∧
      (machine.effectiveAddress .zeroPageX).1.toNat ≤ 0xFF := by
  intro code machine
  obtain ⟨indirect, _⟩ := machine.effectiveAddress_denotes .indirectX
  obtain ⟨indexed, _, _, below⟩ := machine.effectiveAddress_denotes .zeroPageX
  obtain ⟨absolute, moved, _⟩ := machine.effectiveAddress_denotes .absolute
  refine ⟨indirect.trans ?_, indexed.trans ?_, absolute.trans ?_, moved.trans ?_,
    below (by decide)⟩
  all_goals simp [Mode.operandBytes, machine, code, Mode.denoted, Memory.byteAt, Memory.read_write]

end Machine

end Cpu6502
