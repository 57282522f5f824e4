/-
The account a machine gives of itself. A journal keeps the records at or above its
threshold, in the order in which they are noted; without a threshold it keeps none.
-/

import Cpu6502.Digits
import Cpu6502.Instruction

namespace Cpu6502

inductive Level where
  | trace
  | debug
  | warn
  deriving DecidableEq

def Level.name : Level → String
  | .trace => "TRACE"
  | .debug => "DEBUG"
  | .warn => "WARN"

def Level.rank : Level → Nat
  | .trace => 0
  | .debug => 1
  | .warn => 2

inductive Record where
  | reset (pc : Address)
  | loaded (length : Nat) (start : Address)
  | fetched (address : Address) (opcode : Byte) (instruction : Instruction)
  | returned (address : Address) (steps : UInt64)
  | illegalOpcode (opcode : Byte) (address : Address)
  deriving DecidableEq

def Record.level : Record → Level
  | .fetched .. => .trace
  | .reset .. | .loaded .. | .returned .. => .debug
  | .illegalOpcode .. => .warn

def Record.text : Record → String
  | .reset pc => "reset: pc=0x" ++ hexWord pc.toNat
  | .loaded length start =>
      "loaded " ++ Nat.repr length ++ " byte image at 0x" ++ hexWord start.toNat
  | .fetched address opcode instruction =>
      "0x" ++ hexWord address.toNat ++ ": " ++ hexByte opcode.toNat ++ " "
        ++ instruction.mnemonic.name ++ " " ++ instruction.mode.name
  | .returned address steps =>
      "RET at 0x" ++ hexWord address.toNat ++ " after " ++ Nat.repr steps.toNat ++ " steps, halting"
  | .illegalOpcode opcode address =>
      "illegal opcode 0x" ++ hexByte opcode.toNat ++ " at 0x" ++ hexWord address.toNat ++ ", halting"

structure Journal where
  /-- The least grave level that is kept. -/
  threshold : Option Level := none
  records : Array Record := #[]

def Journal.silent : Journal := {}

/-- Keeps records of this level and all graver ones. -/
def Journal.atLeast (level : Level) : Journal :=
  { threshold := some level }

def Journal.keeps (journal : Journal) (record : Record) : Bool :=
  match journal.threshold with
  | none => false
  | some level => level.rank ≤ record.level.rank

def Journal.note (journal : Journal) (record : Record) : Journal :=
  if journal.keeps record then
    match journal with
    | ⟨threshold, records⟩ => ⟨threshold, records.push record⟩
  else journal

def Journal.cleared (journal : Journal) : Journal :=
  { journal with records := #[] }

end Cpu6502
