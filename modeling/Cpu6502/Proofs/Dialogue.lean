/-
A machine meets its bus only in a dialogue of byte reads and byte writes, in which what comes
next depends on the bytes read so far and on nothing else about the bus. Resolving, executing,
stepping, running, resetting and loading each are such a dialogue, on every bus. What holds of
a run because of the accesses it makes is proved of all dialogues and then needs no case per
instruction.
-/

import Cpu6502.Bus.Traced
import Cpu6502.Machine.Run

namespace Cpu6502

/-- Reads, writes and records on the way to a result. -/
inductive Dialogue (α : Type) where
  | done (result : α)
  | read (address : Address) (next : Byte → Dialogue α)
  | write (address : Address) (value : Byte) (next : Dialogue α)
  | note (record : Record) (next : Dialogue α)

namespace Dialogue

variable {α β : Type} {σ : Type u} [Bus σ]

def bind : Dialogue α → (α → Dialogue β) → Dialogue β
  | .done result, continuation => continuation result
  | .read address next, continuation => .read address fun value => (next value).bind continuation
  | .write address value next, continuation => .write address value (next.bind continuation)
  | .note record next, continuation => .note record (next.bind continuation)

def hold : Dialogue α → σ → α × σ
  | .done result, bus => (result, bus)
  | .read address next, bus => (next (Bus.read bus address).1).hold (Bus.read bus address).2
  | .write address value next, bus => next.hold (Bus.write bus address value)
  | .note _ next, bus => next.hold bus

def accesses : Dialogue α → σ → List Access
  | .done _, _ => []
  | .read address next, bus =>
      .read address (Bus.read bus address).1 ::
        (next (Bus.read bus address).1).accesses (Bus.read bus address).2
  | .write address value next, bus =>
      .write address value :: next.accesses (Bus.write bus address value)
  | .note _ next, bus => next.accesses bus

def records : Dialogue α → σ → List Record
  | .done _, _ => []
  | .read address next, bus =>
      (next (Bus.read bus address).1).records (Bus.read bus address).2
  | .write address value next, bus => next.records (Bus.write bus address value)
  | .note record next, bus => record :: next.records bus

theorem hold_bind (dialogue : Dialogue α) (continuation : α → Dialogue β) (bus : σ) :
    (dialogue.bind continuation).hold bus =
      (continuation (dialogue.hold bus).1).hold (dialogue.hold bus).2 := by
  induction dialogue generalizing bus with
  | done result => rfl
  | read address next ih => exact ih _ _
  | write address value next ih => exact ih _
  | note record next ih => exact ih _

theorem accesses_bind (dialogue : Dialogue α) (continuation : α → Dialogue β) (bus : σ) :
    (dialogue.bind continuation).accesses bus =
      dialogue.accesses bus ++
        (continuation (dialogue.hold bus).1).accesses (dialogue.hold bus).2 := by
  induction dialogue generalizing bus with
  | done result => rfl
  | read address next ih => exact congrArg (List.cons _) (ih _ _)
  | write address value next ih => exact congrArg (List.cons _) (ih _)
  | note record next ih => exact ih _

theorem records_bind (dialogue : Dialogue α) (continuation : α → Dialogue β) (bus : σ) :
    (dialogue.bind continuation).records bus =
      dialogue.records bus ++
        (continuation (dialogue.hold bus).1).records (dialogue.hold bus).2 := by
  induction dialogue generalizing bus with
  | done result => rfl
  | read address next ih => exact ih _ _
  | write address value next ih => exact ih _
  | note record next ih => exact congrArg (List.cons record) (ih _)

/-- A trace keeps exactly the accesses of the dialogue and disturbs nothing. -/
theorem hold_traced (dialogue : Dialogue α) (traced : Traced σ) :
    (dialogue.hold traced).1 = (dialogue.hold traced.inner).1 ∧
      (dialogue.hold traced).2.inner = (dialogue.hold traced.inner).2 ∧
      (dialogue.hold traced).2.accesses.toList =
        traced.accesses.toList ++ dialogue.accesses traced.inner := by
  induction dialogue generalizing traced with
  | done result => exact ⟨rfl, rfl, (List.append_nil _).symm⟩
  | read address next ih =>
      obtain ⟨result, inner, accesses⟩ := ih (Bus.read traced.inner address).1
        ⟨(Bus.read traced.inner address).2,
          traced.accesses.push (.read address (Bus.read traced.inner address).1)⟩
      refine ⟨result, inner, accesses.trans ?_⟩
      rw [Array.toList_push, List.append_assoc]
      rfl
  | write address value next ih =>
      obtain ⟨result, inner, accesses⟩ := ih
        ⟨Bus.write traced.inner address value, traced.accesses.push (.write address value)⟩
      refine ⟨result, inner, accesses.trans ?_⟩
      rw [Array.toList_push, List.append_assoc]
      rfl
  | note record next ih => exact ih traced

def readWord (address : Address) : Dialogue Address :=
  .read address fun low => .read (address + 1) fun high => .done (Address.ofBytes low high)

def writeWord (address word : Address) (next : Dialogue α) : Dialogue α :=
  .write address word.lowByte (.write (address + 1) word.highByte next)

def writeAll (next : Dialogue α) : Address → List Byte → Dialogue α
  | _, [] => next
  | start, value :: rest => .write start value (writeAll next (start + 1) rest)

theorem hold_writeAll (next : Dialogue α) (start : Address) (values : List Byte) (bus : σ) :
    (next.writeAll start values).hold bus = next.hold (Bus.writeAll bus start values) := by
  induction values generalizing start bus with
  | nil => rfl
  | cons value rest ih => exact ih (start + 1) (Bus.write bus start value)

theorem records_writeAll (next : Dialogue α) (start : Address) (values : List Byte) (bus : σ) :
    (next.writeAll start values).records bus = next.records (Bus.writeAll bus start values) := by
  induction values generalizing start bus with
  | nil => rfl
  | cons value rest ih => exact ih (start + 1) (Bus.write bus start value)

end Dialogue

/-! ### The dialogues of a machine -/

def Mode.dialogue (mode : Mode) (registers : Registers) : Dialogue Address :=
  match mode with
  | .implicit | .immediate => .done registers.pc
  | .zeroPage => .read registers.pc fun operand => .done operand.toUInt16
  | .zeroPageX => .read registers.pc fun operand => .done (operand + registers.x).toUInt16
  | .zeroPageY => .read registers.pc fun operand => .done (operand + registers.y).toUInt16
  | .absolute => .readWord registers.pc
  | .absoluteX =>
      (Dialogue.readWord registers.pc).bind fun base => .done (base + registers.x.toUInt16)
  | .absoluteY =>
      (Dialogue.readWord registers.pc).bind fun base => .done (base + registers.y.toUInt16)
  | .indirectX => .read registers.pc fun operand => .readWord (operand + registers.x).toUInt16
  | .indirectY => .read registers.pc fun operand =>
      (Dialogue.readWord operand.toUInt16).bind fun base => .done (base + registers.y.toUInt16)

def Instruction.dialogue (instruction : Instruction) (registers : Registers) :
    Dialogue Registers :=
  let moved := registers.advance instruction.mode.operandBytes
  match instruction.mnemonic with
  | .lda => (instruction.mode.dialogue registers).bind fun address =>
      .read address fun value => .done (moved.loadA value)
  | .ldx => (instruction.mode.dialogue registers).bind fun address =>
      .read address fun value => .done (moved.loadX value)
  | .sta => (instruction.mode.dialogue registers).bind fun address =>
      .write address registers.a (.done moved)
  | .stx => (instruction.mode.dialogue registers).bind fun address =>
      .write address registers.x (.done moved)
  | .tax => .done (registers.loadX registers.a)
  | .inx => .done (registers.loadX (registers.x + 1))
  | .ret => .done registers

/-- A machine without its bus and its journal. -/
structure Processor where
  registers : Registers
  state : RunState
  steps : UInt64

def Processor.step (processor : Processor) : Dialogue (Except Fault RunState × Processor) :=
  match processor with
  | ⟨registers, .halted, steps⟩ => .done (.ok .halted, ⟨registers, .halted, steps⟩)
  | ⟨registers, .running, steps⟩ =>
      .read registers.pc fun opcode =>
        match Instruction.decode opcode with
        | none =>
            .note (.illegalOpcode opcode registers.pc)
              (.done (.error (.illegalOpcode opcode registers.pc),
                ⟨registers.advance 1, .halted, steps⟩))
        | some instruction =>
            .note (.fetched registers.pc opcode instruction)
              ((instruction.dialogue (registers.advance 1)).bind fun moved =>
                if instruction.mnemonic = .ret then
                  .note (.returned registers.pc (steps + 1))
                    (.done (.ok .halted, ⟨moved, .halted, steps + 1⟩))
                else .done (.ok .running, ⟨moved, .running, steps + 1⟩))

def Processor.run : Nat → Processor → Dialogue (Except Fault RunState × Processor)
  | 0, processor => .done (.ok processor.state, processor)
  | budget + 1, processor =>
      processor.step.bind fun
        | (.ok .running, next) => run budget next
        | (.ok .halted, next) => .done (.ok .halted, next)
        | (.error fault, next) => .done (.error fault, next)

def Processor.reset : Dialogue (Unit × Processor) :=
  (Dialogue.readWord resetVector).bind fun pc =>
    .note (.reset pc) (.done ((), ⟨Registers.atReset pc, .running, 0⟩))

def Processor.load (processor : Processor) (image : List Byte) :
    Dialogue (Except LoadError Unit × Processor) :=
  if image.length ≤ programCapacity then
    Dialogue.writeAll
      (Dialogue.writeWord resetVector programStart
        (.note (.loaded image.length programStart)
          (Processor.reset.bind fun (_, started) => .done (.ok (), started))))
      programStart image
  else .done (.error (.imageTooLarge image.length programCapacity), processor)

namespace Machine

variable {α β : Type} {σ : Type u} [Bus σ]

def processor (machine : Machine σ) : Processor :=
  ⟨machine.registers, machine.state, machine.steps⟩

/-- Holds a dialogue with the bus of a machine and notes its records. -/
def engage (machine : Machine σ) (dialogue : Dialogue (α × Processor)) : α × Machine σ :=
  let ((answer, processor), bus) := dialogue.hold machine.bus
  (answer, ⟨processor.registers, processor.state, processor.steps, bus,
    (dialogue.records machine.bus).foldl Journal.note machine.journal⟩)

theorem engage_bind (machine : Machine σ) (dialogue : Dialogue (α × Processor))
    (continuation : α × Processor → Dialogue (β × Processor)) :
    machine.engage (dialogue.bind continuation) =
      (machine.engage dialogue).2.engage
        (continuation ((machine.engage dialogue).1, (machine.engage dialogue).2.processor)) := by
  simp only [engage, processor, Dialogue.hold_bind, Dialogue.records_bind, List.foldl_append]

end Machine

/-! ### Nothing else reaches the bus -/

section

variable {σ : Type u} [Bus σ]

theorem Mode.resolve_eq_hold (mode : Mode) (registers : Registers) (bus : σ) :
    mode.resolve registers bus = (mode.dialogue registers).hold bus := by
  cases mode <;> rfl

theorem Mode.records_dialogue (mode : Mode) (registers : Registers) (bus : σ) :
    (mode.dialogue registers).records bus = [] := by
  cases mode <;> rfl

theorem Instruction.execute_eq_hold (instruction : Instruction) (registers : Registers)
    (bus : σ) : instruction.execute registers bus = (instruction.dialogue registers).hold bus := by
  unfold Instruction.execute Instruction.dialogue
  cases instruction.mnemonic with
  | lda | ldx | sta | stx =>
      simp only [Mode.resolve_eq_hold, Dialogue.hold_bind]
      rfl
  | tax | inx | ret => rfl

theorem Instruction.records_dialogue (instruction : Instruction) (registers : Registers)
    (bus : σ) : (instruction.dialogue registers).records bus = [] := by
  unfold Instruction.dialogue
  cases instruction.mnemonic with
  | lda | ldx | sta | stx =>
      simp only [Dialogue.records_bind, Mode.records_dialogue]
      rfl
  | tax | inx | ret => rfl

namespace Machine

theorem step_eq_engage (machine : Machine σ) :
    machine.step = machine.engage machine.processor.step := by
  obtain ⟨registers, state, steps, bus, journal⟩ := machine
  cases state with
  | halted => rfl
  | running =>
      simp only [step, engage, processor, Processor.step, Dialogue.hold, Dialogue.records]
      cases Instruction.decode (Bus.read bus registers.pc).1 with
      | none => rfl
      | some instruction =>
          simp only [Instruction.execute_eq_hold, Dialogue.hold, Dialogue.records,
            Dialogue.hold_bind, Dialogue.records_bind, Instruction.records_dialogue]
          by_cases returns : instruction.mnemonic = .ret
          · simp only [if_pos returns]
            rfl
          · simp only [if_neg returns]
            rfl

theorem run_eq_engage (machine : Machine σ) (budget : Nat) :
    machine.run budget = machine.engage (machine.processor.run budget) := by
  induction budget generalizing machine with
  | zero => rfl
  | succ budget ih =>
      rw [run, Processor.run, engage_bind, ← step_eq_engage]
      rcases machine.step with ⟨answer, next⟩
      rcases answer with fault | state
      · rfl
      · cases state with
        | running => exact ih next
        | halted => rfl

theorem reset_eq_engage (machine : Machine σ) :
    machine.reset = (machine.engage Processor.reset).2 := rfl

theorem load_eq_engage (machine : Machine σ) (image : List Byte) :
    machine.load image = machine.engage (machine.processor.load image) := by
  rw [load, Processor.load]
  by_cases fits : image.length ≤ programCapacity
  · simp only [if_pos fits, engage, Dialogue.hold_writeAll, Dialogue.records_writeAll]
    rfl
  · rw [if_neg fits, if_neg fits]
    rfl

/-- The same machine on a bus that keeps its accesses. -/
def traced (machine : Machine σ) : Machine (Traced σ) :=
  ⟨machine.registers, machine.state, machine.steps, ⟨machine.bus, #[]⟩, machine.journal⟩

theorem accesses_engage_traced {α : Type} (machine : Machine σ)
    (dialogue : Dialogue (α × Processor)) :
    (machine.traced.engage dialogue).2.bus.accesses.toList = dialogue.accesses machine.bus :=
  (dialogue.hold_traced ⟨machine.bus, #[]⟩).2.2

def accesses (machine : Machine σ) (budget : Nat) : List Access :=
  (machine.traced.run budget).2.bus.accesses.toList

theorem accesses_eq (machine : Machine σ) (budget : Nat) :
    machine.accesses budget = (machine.processor.run budget).accesses machine.bus := by
  rw [accesses, run_eq_engage]
  exact accesses_engage_traced machine _

end Machine

end

end Cpu6502
