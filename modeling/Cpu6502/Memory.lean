/-
Flat memory: every address holds a byte of its own. A memory is determined by what
is read from it, and a write changes what is read at its own address only.
-/

import Cpu6502.Bus

namespace Cpu6502

def addressCount : Nat := 65536

structure Memory where
  bytes : Vector Byte 65536

namespace Memory

def zero : Memory :=
  ⟨Vector.replicate 65536 0⟩

@[inline] def read (memory : Memory) (address : Address) : Byte :=
  getElem memory.bytes address.toNat address.toNat_lt

@[inline] def write (memory : Memory) (address : Address) (value : Byte) : Memory :=
  ⟨memory.bytes.set address.toNat value address.toNat_lt⟩

instance : Bus Memory where
  read := fun memory address => (memory.read address, memory)
  write := write

@[simp] theorem read_zero (address : Address) : zero.read address = 0 := by
  simp [zero, read]

theorem read_write (memory : Memory) (target address : Address) (value : Byte) :
    (memory.write target value).read address = if target = address then value else memory.read address := by
  simp only [read, write, Vector.getElem_set, UInt16.toNat_inj]

@[simp] theorem read_write_same (memory : Memory) (address : Address) (value : Byte) :
    (memory.write address value).read address = value := by
  rw [read_write, if_pos rfl]

theorem read_write_of_ne (memory : Memory) {target address : Address} (value : Byte)
    (different : target ≠ address) : (memory.write target value).read address = memory.read address := by
  rw [read_write, if_neg different]

@[ext] theorem ext {left right : Memory} (same : ∀ address, left.read address = right.read address) :
    left = right := by
  obtain ⟨leftBytes⟩ := left
  obtain ⟨rightBytes⟩ := right
  congr 1
  apply Vector.ext
  intro index bound
  have atIndex := same (UInt16.ofNat index)
  have recovered : (UInt16.ofNat index).toNat = index := UInt16.toNat_ofNat_of_lt' bound
  simpa only [read, recovered] using atIndex

theorem write_read (memory : Memory) (address : Address) :
    memory.write address (memory.read address) = memory := by
  ext other
  rw [read_write]
  split
  · next same => rw [same]
  · rfl

/-- Every byte that is not zero with its address, ascending. -/
def nonZero (memory : Memory) : List (Address × Byte) :=
  (List.range addressCount).filterMap fun index =>
    let address := UInt16.ofNat index
    let value := memory.read address
    if value = 0 then none else some (address, value)

end Memory

end Cpu6502
