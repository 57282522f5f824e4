/-
The bus between a processor and whatever answers at its addresses. Every access
moves one byte; a word is two accesses, the low half first.
-/

import Cpu6502.Word

namespace Cpu6502

/-- A read may change the device that answers it. -/
class Bus (σ : Type u) where
  read : σ → Address → Byte × σ
  write : σ → Address → Byte → σ

namespace Bus

variable {σ : Type u} [Bus σ]

@[inline] def readWord (bus : σ) (address : Address) : Address × σ :=
  let (low, bus) := read bus address
  let (high, bus) := read bus (address + 1)
  (Address.ofBytes low high, bus)

@[inline] def writeWord (bus : σ) (address word : Address) : σ :=
  write (write bus address word.lowByte) (address + 1) word.highByte

def writeAll (bus : σ) (start : Address) : List Byte → σ
  | [] => bus
  | value :: rest => writeAll (write bus start value) (start + 1) rest

end Bus

end Cpu6502
