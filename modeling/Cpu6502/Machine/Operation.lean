/-
What a host can ask of a machine. A session is a list of operations, each of which
answers and leaves a machine for the next.
-/

import Cpu6502.Machine.Run

namespace Cpu6502

inductive Operation where
  | step
  | run (budget : Nat)
  | runToHalt (bound : Nat)
  | reset
  /-- Discards the machine and starts another one on its bus. -/
  | restart
  | load (image : List Byte)
  | effectiveAddress (mode : Mode)
  | assign (assignment : Assignment)
  | peek (address : Address)
  | peekWord (address : Address)
  | poke (address : Address) (value : Byte)
  | pokeWord (address word : Address)
  deriving DecidableEq

inductive Answer where
  | done
  | stopped (outcome : Except Fault RunState)
  | counted (outcome : Except Fault UInt64)
  /-- The bound did not suffice. -/
  | unfinished
  | loaded (outcome : Except LoadError Unit)
  | byte (value : Byte)
  | word (value : Address)

namespace Machine

variable {σ : Type u} [Bus σ]

/-- Performs one operation. A run to the halt that does not end leaves the machine alone. -/
@[specialize] def perform (machine : Machine σ) : Operation → Answer × Machine σ
  | .step =>
      let (outcome, next) := machine.step
      (.stopped outcome, next)
  | .run budget =>
      let (outcome, next) := machine.run budget
      (.stopped outcome, next)
  | .runToHalt bound =>
      match machine.runToHalt bound with
      | some (outcome, next) => (.counted outcome, next)
      | none => (.unfinished, machine)
  | .reset => (.done, machine.reset)
  | .restart =>
      match machine with
      | ⟨_, _, _, bus, journal⟩ => (.done, powerOn bus journal)
  | .load image =>
      let (outcome, next) := machine.load image
      (.loaded outcome, next)
  | .effectiveAddress mode =>
      let (address, next) := machine.effectiveAddress mode
      (.word address, next)
  | .assign assignment => (.done, machine.assign assignment)
  | .peek address =>
      let (value, next) := machine.peek address
      (.byte value, next)
  | .peekWord address =>
      let (word, next) := machine.peekWord address
      (.word word, next)
  | .poke address value => (.done, machine.poke address value)
  | .pokeWord address word => (.done, machine.pokeWord address word)

end Machine

end Cpu6502
