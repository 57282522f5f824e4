/-
A bus that keeps every access made through it, in order, and otherwise behaves as
the bus inside it.
-/

import Cpu6502.Bus

namespace Cpu6502

inductive Access where
  | read (address : Address) (value : Byte)
  | write (address : Address) (value : Byte)
  deriving DecidableEq

structure Traced (σ : Type u) where
  inner : σ
  accesses : Array Access := #[]

namespace Traced

variable {σ : Type u} [Bus σ]

instance : Bus (Traced σ) where
  read := fun traced address =>
    match traced with
    | ⟨inner, accesses⟩ =>
      let (value, inner) := Bus.read inner address
      (value, ⟨inner, accesses.push (.read address value)⟩)
  write := fun traced address value =>
    match traced with
    | ⟨inner, accesses⟩ => ⟨Bus.write inner address value, accesses.push (.write address value)⟩

end Traced

end Cpu6502
