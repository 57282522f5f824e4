/-
A machine is a register file on a bus together with its run state, the number of
instructions since the last reset and its journal. A reset takes the program counter
from the reset vector; loading places an image and aims the vector at it.
-/

import Cpu6502.Addressing
import Cpu6502.Fault
import Cpu6502.Journal

namespace Cpu6502

def programStart : Address := 0x8000

def programCapacity : Nat := 0x8000

/-- Where a reset finds the first program counter. -/
def resetVector : Address := 0xFFFC

inductive RunState where
  | running
  | halted
  deriving DecidableEq

def RunState.name : RunState → String
  | .running => "Running"
  | .halted => "Halted"

structure Machine (σ : Type u) where
  registers : Registers
  state : RunState
  /-- Instructions since the last reset. -/
  steps : UInt64
  bus : σ
  journal : Journal

namespace Machine

variable {σ : Type u}

def assign (machine : Machine σ) (assignment : Assignment) : Machine σ :=
  { machine with registers := machine.registers.assign assignment }

variable [Bus σ]

/-- Clears everything but the bus, and starts at the address in the reset vector. -/
@[specialize] def reset (machine : Machine σ) : Machine σ :=
  match machine with
  | ⟨_, _, _, bus, journal⟩ =>
      let (pc, bus) := Bus.readWord bus resetVector
      ⟨Registers.atReset pc, .running, 0, bus, journal.note (.reset pc)⟩

@[specialize] def powerOn (bus : σ) (journal : Journal) : Machine σ :=
  reset ⟨{}, .running, 0, bus, journal⟩

/-- Places an image at the start of the program window and starts it. The vector is
written last, so it replaces image bytes that reach it. -/
@[specialize] def load (machine : Machine σ) (image : List Byte) : Except LoadError Unit × Machine σ :=
  if image.length ≤ programCapacity then
    match machine with
    | ⟨registers, state, steps, bus, journal⟩ =>
        let bus := Bus.writeAll bus programStart image
        let bus := Bus.writeWord bus resetVector programStart
        let journal := journal.note (.loaded image.length programStart)
        (.ok (), reset ⟨registers, state, steps, bus, journal⟩)
  else (.error (.imageTooLarge image.length programCapacity), machine)

/-- Resolves the operand at the program counter and moves past it. -/
@[specialize] def effectiveAddress (machine : Machine σ) (mode : Mode) : Address × Machine σ :=
  match machine with
  | ⟨registers, state, steps, bus, journal⟩ =>
      let (address, bus) := mode.resolve registers bus
      (address, ⟨registers.advance mode.operandBytes, state, steps, bus, journal⟩)

/-! ### Access from outside -/

def peek (machine : Machine σ) (address : Address) : Byte × Machine σ :=
  match machine with
  | ⟨registers, state, steps, bus, journal⟩ =>
      let (value, bus) := Bus.read bus address
      (value, ⟨registers, state, steps, bus, journal⟩)

def peekWord (machine : Machine σ) (address : Address) : Address × Machine σ :=
  match machine with
  | ⟨registers, state, steps, bus, journal⟩ =>
      let (word, bus) := Bus.readWord bus address
      (word, ⟨registers, state, steps, bus, journal⟩)

def poke (machine : Machine σ) (address : Address) (value : Byte) : Machine σ :=
  match machine with
  | ⟨registers, state, steps, bus, journal⟩ =>
      ⟨registers, state, steps, Bus.write bus address value, journal⟩

def pokeWord (machine : Machine σ) (address word : Address) : Machine σ :=
  match machine with
  | ⟨registers, state, steps, bus, journal⟩ =>
      ⟨registers, state, steps, Bus.writeWord bus address word, journal⟩

end Machine

end Cpu6502
