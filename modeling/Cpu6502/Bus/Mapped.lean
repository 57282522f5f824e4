/-
A memory behind an address decoder: addresses are masked before they select a byte,
so several addresses may share a byte, and the upper part may be read-only.
-/

import Cpu6502.Memory

namespace Cpu6502

structure Mapped where
  memory : Memory
  /-- The address lines that are connected. -/
  mask : Address := 0xFFFF
  /-- The first selected address that ignores writes. -/
  readOnlyFrom : Nat := addressCount

namespace Mapped

def select (mapped : Mapped) (address : Address) : Address :=
  address &&& mapped.mask

instance : Bus Mapped where
  read := fun mapped address => (mapped.memory.read (mapped.select address), mapped)
  write := fun mapped address value =>
    let target := mapped.select address
    match mapped with
    | ⟨memory, mask, readOnlyFrom⟩ =>
      if target.toNat < readOnlyFrom then ⟨memory.write target value, mask, readOnlyFrom⟩
      else ⟨memory, mask, readOnlyFrom⟩

end Mapped

end Cpu6502
