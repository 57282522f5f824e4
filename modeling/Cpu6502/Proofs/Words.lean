/-
Words in flat memory. A word that has been written shows in three words that can be read: in
its own and in those one address further on and one address back, which share a byte with it.
Every other word is as before. The byte behind the top of the address space is the one at its
bottom, so that a word has a neighbour on either side wherever it stands.
-/

import Cpu6502.Memory

namespace Cpu6502

theorem Bus.readWord_memory (memory : Memory) (address : Address) :
    Bus.readWord memory address =
      (Address.ofBytes (memory.read address) (memory.read (address + 1)), memory) := rfl

theorem Bus.writeWord_memory (memory : Memory) (address word : Address) :
    Bus.writeWord memory address word =
      (memory.write address word.lowByte).write (address + 1) word.highByte := rfl

namespace Memory

variable (memory : Memory) (start word : Address)

/-! ### The bytes of a written word -/

theorem read_writeWord (address : Address) :
    (Bus.writeWord memory start word).read address =
      if start + 1 = address then word.highByte
      else if start = address then word.lowByte
      else memory.read address := by
  rw [Bus.writeWord_memory, read_write, read_write]

theorem read_writeWord_low : (Bus.writeWord memory start word).read start = word.lowByte := by
  have apart : start + 1 ≠ start := by simp
  rw [read_writeWord, if_neg apart, if_pos rfl]

theorem read_writeWord_high :
    (Bus.writeWord memory start word).read (start + 1) = word.highByte := by
  rw [read_writeWord, if_pos rfl]

theorem read_writeWord_of_ne {address : Address} (low : address ≠ start)
    (high : address ≠ start + 1) :
    (Bus.writeWord memory start word).read address = memory.read address := by
  rw [read_writeWord, if_neg (Ne.symm high), if_neg (Ne.symm low)]

/-! ### The words that a written one shows in -/

theorem readWord_writeWord : (Bus.readWord (Bus.writeWord memory start word) start).1 = word := by
  rw [Bus.readWord_memory, read_writeWord_low, read_writeWord_high,
    Address.ofBytes_lowByte_highByte]

theorem readWord_writeWord_next :
    (Bus.readWord (Bus.writeWord memory start word) (start + 1)).1 =
      Address.ofBytes word.highByte (memory.read (start + 2)) := by
  have second : start + 1 + 1 = start + 2 := UInt16.add_assoc start 1 1
  have low : start + 2 ≠ start := by simp
  have high : start + 2 ≠ start + 1 := by simp
  rw [Bus.readWord_memory, second, read_writeWord_high, read_writeWord_of_ne _ _ _ low high]

theorem readWord_writeWord_previous :
    (Bus.readWord (Bus.writeWord memory start word) (start - 1)).1 =
      Address.ofBytes (memory.read (start - 1)) word.lowByte := by
  have low : start - 1 ≠ start := by grind
  have high : start - 1 ≠ start + 1 := by grind
  rw [Bus.readWord_memory, UInt16.sub_add_cancel, read_writeWord_low,
    read_writeWord_of_ne _ _ _ low high]

/-- A word begins at the second byte of the written one exactly if it is the next, and ends at
the first byte exactly if it is the previous. -/
theorem readWord_writeWord_of_ne {address : Address} (own : address ≠ start)
    (next : address ≠ start + 1) (previous : address ≠ start - 1) :
    (Bus.readWord (Bus.writeWord memory start word) address).1 =
      (Bus.readWord memory address).1 := by
  have low : address + 1 ≠ start :=
    fun same => previous (UInt16.eq_sub_iff_add_eq.mpr same)
  have high : address + 1 ≠ start + 1 :=
    fun same => own ((UInt16.add_left_inj 1).mp same)
  rw [Bus.readWord_memory, Bus.readWord_memory, read_writeWord_of_ne _ _ _ own next,
    read_writeWord_of_ne _ _ _ low high]

theorem writeWord_readWord :
    Bus.writeWord (Bus.readWord memory start).2 start (Bus.readWord memory start).1 = memory := by
  rw [Bus.readWord_memory, Bus.writeWord_memory, Address.lowByte_ofBytes,
    Address.highByte_ofBytes, write_read, write_read]

/-! ### Words as numbers -/

/-- A written word is read back whole from its own address, its upper half from the next and its
lower half from the previous one. No other word and no other byte has changed, and writing back
what has been read changes nothing. -/
theorem word_after_write (memory : Memory) (start word : Address) :
    let after := Bus.writeWord memory start word
    (Bus.readWord after start).1 = word ∧
      (Bus.readWord after (start + 1)).1.toNat =
        word.toNat / 256 + 256 * (memory.read (start + 2)).toNat ∧
      (Bus.readWord after (start - 1)).1.toNat =
        (memory.read (start - 1)).toNat + 256 * (word.toNat % 256) ∧
      (∀ address, address ≠ start → address ≠ start + 1 → address ≠ start - 1 →
        (Bus.readWord after address).1 = (Bus.readWord memory address).1) ∧
      (∀ address, address ≠ start → address ≠ start + 1 →
        after.read address = memory.read address) ∧
      Bus.writeWord (Bus.readWord memory start).2 start (Bus.readWord memory start).1 =
        memory := by
  intro after
  have own : (Bus.readWord after start).1 = word := memory.readWord_writeWord start word
  have next : (Bus.readWord after (start + 1)).1 = _ := memory.readWord_writeWord_next start word
  have previous : (Bus.readWord after (start - 1)).1 = _ :=
    memory.readWord_writeWord_previous start word
  refine ⟨own, ?_, ?_, ?_, ?_, memory.writeWord_readWord start⟩
  · rw [next, Address.toNat_ofBytes, Address.toNat_highByte]
  · rw [previous, Address.toNat_ofBytes, Address.toNat_lowByte]
  · intro address apart behind before
    exact memory.readWord_writeWord_of_ne start word apart behind before
  · intro address low high
    exact memory.read_writeWord_of_ne start word low high

/-- The word at the top of memory has its high half at the bottom, where the next word begins. -/
theorem word_after_write_wrapped :
    let memory := ((zero.write 0xFFFE 0x33).write 0x0001 0x22).write 0x7FFF 0x44
    let after := Bus.writeWord memory 0xFFFF 0xBEEF
    (Bus.readWord after 0xFFFF).1 = 0xBEEF ∧
      (Bus.readWord after 0x0000).1.toNat = 0x22BE ∧
      (Bus.readWord after 0xFFFE).1.toNat = 0xEF33 ∧
      (Bus.readWord after 0x7FFF).1 = 0x0044 ∧ after.read 0x0001 = 0x22 ∧
      Bus.writeWord memory 0xFFFF (Bus.readWord memory 0xFFFF).1 = memory := by
  intro memory after
  obtain ⟨own, next, previous, otherWords, otherBytes, restored⟩ :=
    memory.word_after_write 0xFFFF 0xBEEF
  refine ⟨own, next.trans ?_, previous.trans ?_,
    (otherWords 0x7FFF (by decide) (by decide) (by decide)).trans ?_,
    (otherBytes 0x0001 (by decide) (by decide)).trans ?_, restored⟩
  all_goals simp [memory, Bus.readWord_memory, Address.ofBytes, read_write]

end Memory

end Cpu6502
