/-
One step over flat memory, field by field. `Machine.step_of_decoded` and
`Machine.step_of_undecoded` say everything that a step can do; what is proved about runs
rests on these two and opens no handler again.
-/

import Cpu6502.Machine.Step
import Cpu6502.Memory

namespace Cpu6502

/-! ### Reading flat memory leaves it alone -/

@[simp] theorem Bus.read_memory (memory : Memory) (address : Address) :
    Bus.read memory address = (memory.read address, memory) := rfl

@[simp] theorem Bus.write_memory (memory : Memory) (address : Address) (value : Byte) :
    Bus.write memory address value = memory.write address value := rfl

/-- The address that an operand denotes on flat memory. -/
def Mode.address (mode : Mode) (registers : Registers) (memory : Memory) : Address :=
  (mode.resolve registers memory).1

theorem Mode.resolve_memory (mode : Mode) (registers : Registers) (memory : Memory) :
    mode.resolve registers memory = (mode.address registers memory, memory) := by
  cases mode <;> rfl

/-! ### Moving the program counter -/

@[simp] theorem Registers.advance_a (registers : Registers) (count : Nat) :
    (registers.advance count).a = registers.a := rfl

@[simp] theorem Registers.advance_x (registers : Registers) (count : Nat) :
    (registers.advance count).x = registers.x := rfl

theorem Registers.advance_advance (registers : Registers) (first second : Nat) :
    (registers.advance first).advance second = registers.advance (first + second) := by
  simp only [Registers.advance, UInt16.ofNat_add, UInt16.add_assoc]

theorem Registers.toNat_pc_advance (registers : Registers) (count : Nat) :
    (registers.advance count).pc.toNat = (registers.pc.toNat + count) % 65536 := by
  simp only [Registers.advance, UInt16.toNat_add, UInt16.toNat_ofNat']
  omega

theorem Registers.advance_operandBytes (registers : Registers) (instruction : Instruction) :
    (registers.advance 1).advance instruction.mode.operandBytes =
      registers.advance instruction.size := by
  rw [Registers.advance_advance, Instruction.size, Nat.add_comm]

theorem topBit_eq (value : Byte) : decide (0x80 ≤ value) = value.toNat.testBit 7 := by
  have bound := value.toNat_lt
  have half : (0x80 : Byte).toNat = 128 := rfl
  rw [Nat.testBit_eq_decide_div_mod_eq, decide_eq_decide, UInt8.le_iff_toNat_le, half]
  omega

/-! ### What an instruction leaves -/

namespace Machine

def opcode (machine : Machine Memory) : Byte :=
  machine.bus.read machine.registers.pc

/-- The effective address of an instruction at the program counter: its operand starts one
byte further on. -/
def target (machine : Machine Memory) (mode : Mode) : Address :=
  ({ machine with registers := machine.registers.advance 1 }.effectiveAddress mode).1

theorem target_eq (machine : Machine Memory) (mode : Mode) :
    machine.target mode = mode.address (machine.registers.advance 1) machine.bus := rfl

end Machine

namespace Instruction

variable (instruction : Instruction) (machine : Machine Memory)

def stored? : Option Byte :=
  match instruction.mnemonic with
  | .sta => some machine.registers.a
  | .stx => some machine.registers.x
  | .lda | .ldx | .tax | .inx | .ret => none

def registersAfter : Registers :=
  let advanced := machine.registers.advance instruction.size
  match instruction.mnemonic with
  | .lda => advanced.loadA (machine.bus.read (machine.target instruction.mode))
  | .ldx => advanced.loadX (machine.bus.read (machine.target instruction.mode))
  | .tax => advanced.loadX machine.registers.a
  | .inx => advanced.loadX (machine.registers.x + 1)
  | .sta | .stx | .ret => advanced

theorem registersAfter_pc :
    (instruction.registersAfter machine).pc =
      machine.registers.pc + UInt16.ofNat instruction.size := by
  unfold registersAfter
  cases instruction.mnemonic <;> rfl

def memoryAfter : Memory :=
  match instruction.stored? machine with
  | some value => machine.bus.write (machine.target instruction.mode) value
  | none => machine.bus

def stateAfter : RunState :=
  if instruction.mnemonic = .ret then .halted else .running

theorem ret_of_halted {instruction : Instruction} (halted : instruction.stateAfter = .halted) :
    instruction.mnemonic = .ret := by
  unfold stateAfter at halted
  split at halted
  case isTrue returns => exact returns
  case isFalse => cases halted

def journalAfter : Journal :=
  let fetched := machine.journal.note
    (.fetched machine.registers.pc machine.opcode instruction)
  if instruction.mnemonic = .ret then
    fetched.note (.returned machine.registers.pc (machine.steps + 1))
  else fetched

def after : Machine Memory where
  registers := instruction.registersAfter machine
  state := instruction.stateAfter
  steps := machine.steps + 1
  bus := instruction.memoryAfter machine
  journal := instruction.journalAfter machine

theorem after_pc :
    (instruction.after machine).registers.pc =
      machine.registers.pc + UInt16.ofNat instruction.size :=
  instruction.registersAfter_pc machine

end Instruction

/-- The handlers without an operand leave the program counter alone, as an implicit one does. -/
theorem Instruction.execute_memory {machine : Machine Memory} {instruction : Instruction}
    (decoded : Instruction.decode machine.opcode = some instruction) :
    instruction.execute (machine.registers.advance 1) machine.bus =
      (instruction.registersAfter machine, instruction.memoryAfter machine) := by
  have moved := machine.registers.advance_operandBytes instruction
  have implicit := Instruction.mode_eq_implicit_iff decoded
  unfold Instruction.execute registersAfter memoryAfter stored?
  cases named : instruction.mnemonic with
  | lda | ldx | sta | stx =>
      simp only [Mode.resolve_memory, Bus.read_memory, Bus.write_memory, moved,
        Machine.target_eq, Registers.advance_a, Registers.advance_x]
  | tax | inx | ret =>
      have single : instruction.size = 1 := by
        simp only [Instruction.size, implicit.mpr (by simp [named]), Mode.operandBytes]
      simp only [single, Registers.advance_a, Registers.advance_x]

namespace Machine

variable {machine : Machine Memory}

/-- A byte that stands for no instruction is passed and halts the machine uncounted. -/
theorem step_of_undecoded (running : machine.state = .running)
    (undecoded : Instruction.decode machine.opcode = none) :
    machine.step =
      (.error (.illegalOpcode machine.opcode machine.registers.pc),
        { machine with
          registers := machine.registers.advance 1
          state := .halted
          journal := machine.journal.note
            (.illegalOpcode machine.opcode machine.registers.pc) }) := by
  obtain ⟨registers, state, steps, memory, journal⟩ := machine
  cases running
  change Instruction.decode (memory.read registers.pc) = none at undecoded
  simp only [step, Bus.read_memory, undecoded, opcode]

theorem step_of_decoded (running : machine.state = .running) {instruction : Instruction}
    (decoded : Instruction.decode machine.opcode = some instruction) :
    machine.step = (.ok instruction.stateAfter, instruction.after machine) := by
  have executed := Instruction.execute_memory decoded
  obtain ⟨registers, state, steps, memory, journal⟩ := machine
  cases running
  change Instruction.decode (memory.read registers.pc) = some instruction at decoded
  simp only [step, Bus.read_memory, decoded, executed, Instruction.after,
    Instruction.stateAfter, Instruction.journalAfter, opcode]
  by_cases returns : instruction.mnemonic = .ret
  · simp only [if_pos returns]
  · simp only [if_neg returns]

theorem pc_step_of_running {machine : Machine Memory} (goes : machine.step.2.state = .running)
    (running : machine.state = .running) :
    ∃ instruction, Instruction.decode machine.opcode = some instruction ∧
      instruction.mnemonic ≠ .ret ∧
      machine.step.2.registers.pc = machine.registers.pc + UInt16.ofNat instruction.size := by
  cases decoded : Instruction.decode machine.opcode with
  | none =>
      rw [step_of_undecoded running decoded] at goes
      cases goes
  | some instruction =>
      rw [step_of_decoded running decoded] at goes ⊢
      refine ⟨instruction, rfl, ?_, instruction.after_pc machine⟩
      intro returns
      rw [Instruction.after, Instruction.stateAfter, if_pos returns] at goes
      cases goes

/-- The address and the byte of the store that the next step makes. -/
def store? (machine : Machine Memory) : Option (Address × Byte) :=
  match machine.state with
  | .halted => none
  | .running =>
      (Instruction.decode machine.opcode).bind fun instruction =>
        (instruction.stored? machine).map fun value => (machine.target instruction.mode, value)

theorem store?_of_halted {machine : Machine Memory} (halted : machine.state = .halted) :
    machine.store? = none := by
  rw [store?, halted]

theorem store?_of_undecoded {machine : Machine Memory}
    (undecoded : Instruction.decode machine.opcode = none) : machine.store? = none := by
  cases state : machine.state with
  | halted => exact store?_of_halted state
  | running =>
      rw [store?, state, undecoded]
      rfl

theorem store?_of_decoded {machine : Machine Memory} (running : machine.state = .running)
    {instruction : Instruction}
    (decoded : Instruction.decode machine.opcode = some instruction) :
    machine.store? =
      (instruction.stored? machine).map fun value => (machine.target instruction.mode, value) := by
  rw [store?, running, decoded]
  rfl

theorem step_bus (machine : Machine Memory) :
    machine.step.2.bus =
      match machine.store? with
      | some (target, value) => machine.bus.write target value
      | none => machine.bus := by
  cases state : machine.state with
  | halted => rw [step_of_halted state, store?_of_halted state]
  | running =>
      cases decoded : Instruction.decode machine.opcode with
      | none => rw [step_of_undecoded state decoded, store?_of_undecoded decoded]
      | some instruction =>
          rw [step_of_decoded state decoded, store?_of_decoded state decoded,
            Instruction.after, Instruction.memoryAfter]
          cases instruction.stored? machine <;> rfl

theorem read_step_of_not_stored {machine : Machine Memory} {address : Address}
    (spared : ∀ target value, machine.store? = some (target, value) → target ≠ address) :
    machine.step.2.bus.read address = machine.bus.read address := by
  rw [step_bus]
  cases stored : machine.store? with
  | none => rfl
  | some store => exact Memory.read_write_of_ne _ _ (spared _ _ stored)

end Machine

/-! ### The step as a change of single fields -/

structure Machine.Refused (before after : Machine Memory) : Prop where
  pc : after.registers.pc.toNat = (before.registers.pc.toNat + 1) % 65536
  a : after.registers.a = before.registers.a
  x : after.registers.x = before.registers.x
  y : after.registers.y = before.registers.y
  sp : after.registers.sp = before.registers.sp
  flags : after.registers.flags = before.registers.flags
  state : after.state = .halted
  steps : after.steps = before.steps
  bytes : ∀ address, after.bus.read address = before.bus.read address

/-- What an instruction makes of a machine. The operand is resolved on the registers and the
memory as they were, also where the instruction overwrites its own bytes. -/
structure Instruction.Performed (instruction : Instruction) (before after : Machine Memory) :
    Prop where
  pc : after.registers.pc.toNat = (before.registers.pc.toNat + instruction.size) % 65536
  a : after.registers.a =
    match instruction.mnemonic with
    | .lda => before.bus.read (before.target instruction.mode)
    | _ => before.registers.a
  x : after.registers.x =
    match instruction.mnemonic with
    | .ldx => before.bus.read (before.target instruction.mode)
    | .tax => before.registers.a
    | .inx => before.registers.x + 1
    | _ => before.registers.x
  y : after.registers.y = before.registers.y
  sp : after.registers.sp = before.registers.sp
  flags : after.registers.flags =
    match instruction.mnemonic with
    | .lda => { before.registers.flags with
        zero := after.registers.a = 0, negative := after.registers.a.toNat.testBit 7 }
    | .ldx | .tax | .inx => { before.registers.flags with
        zero := after.registers.x = 0, negative := after.registers.x.toNat.testBit 7 }
    | .sta | .stx | .ret => before.registers.flags
  state : after.state = if instruction.mnemonic = .ret then .halted else .running
  steps : after.steps.toNat = before.steps.toNat + 1
  bytes : ∀ address, after.bus.read address =
    match instruction.mnemonic with
    | .sta =>
        if before.target instruction.mode = address then before.registers.a
        else before.bus.read address
    | .stx =>
        if before.target instruction.mode = address then before.registers.x
        else before.bus.read address
    | _ => before.bus.read address

theorem Flags.setZeroNegative_eq (flags : Flags) (value : Byte) :
    flags.setZeroNegative value =
      { flags with zero := value = 0, negative := value.toNat.testBit 7 } := by
  rw [← topBit_eq]
  rfl

theorem Instruction.after_performed (instruction : Instruction) {machine : Machine Memory}
    (countable : machine.steps.toNat + 1 < UInt64.size) :
    instruction.Performed machine (instruction.after machine) where
  pc := by
    have advanced := machine.registers.toNat_pc_advance instruction.size
    unfold Instruction.after Instruction.registersAfter
    cases instruction.mnemonic <;> exact advanced
  a := by
    unfold Instruction.after Instruction.registersAfter
    cases instruction.mnemonic <;> rfl
  x := by
    unfold Instruction.after Instruction.registersAfter
    cases instruction.mnemonic <;> rfl
  y := by
    unfold Instruction.after Instruction.registersAfter
    cases instruction.mnemonic <;> rfl
  sp := by
    unfold Instruction.after Instruction.registersAfter
    cases instruction.mnemonic <;> rfl
  flags := by
    unfold Instruction.after Instruction.registersAfter
    cases instruction.mnemonic with
    | lda | ldx | tax | inx => exact Flags.setZeroNegative_eq _ _
    | sta | stx | ret => rfl
  state := rfl
  steps := by
    rw [Instruction.after, UInt64.toNat_add]
    exact Nat.mod_eq_of_lt countable
  bytes := by
    intro address
    unfold Instruction.after Instruction.memoryAfter Instruction.stored?
    cases instruction.mnemonic with
    | sta | stx => exact Memory.read_write _ _ _ _
    | lda | ldx | tax | inx | ret => rfl

/-- A step of a running machine does what the byte at the program counter stands for, and
nothing else. -/
theorem Machine.step_semantics (machine : Machine Memory) (running : machine.state = .running)
    (countable : machine.steps.toNat + 1 < UInt64.size) :
    (Instruction.decode (machine.bus.read machine.registers.pc) = none →
      machine.step.1 =
          .error (.illegalOpcode (machine.bus.read machine.registers.pc) machine.registers.pc) ∧
        machine.Refused machine.step.2) ∧
    ∀ instruction,
      Instruction.decode (machine.bus.read machine.registers.pc) = some instruction →
        machine.step.1 = .ok (if instruction.mnemonic = .ret then .halted else .running) ∧
          instruction.Performed machine machine.step.2 := by
  constructor
  · intro undecoded
    rw [step_of_undecoded running undecoded]
    exact ⟨rfl, machine.registers.toNat_pc_advance 1, rfl, rfl, rfl, rfl, rfl, rfl, rfl,
      fun _ => rfl⟩
  · intro instruction decoded
    rw [step_of_decoded running decoded]
    exact ⟨rfl, instruction.after_performed countable⟩

/-- A store at the top of memory that takes its operand from the bottom and overwrites it. -/
theorem Machine.step_semantics_wrapped :
    let machine : Machine Memory :=
      ⟨{ pc := 0xFFFF, a := 7 }, .running, 41, Memory.zero.write 0xFFFF 0x85, .silent⟩
    machine.state = .running ∧ machine.steps.toNat + 1 < UInt64.size ∧
      machine.step.1 = .ok .running ∧
      (⟨.sta, .zeroPage⟩ : Instruction).Performed machine machine.step.2 := by
  intro machine
  have running : machine.state = .running := rfl
  have countable : machine.steps.toNat + 1 < UInt64.size := by decide
  have decoded : Instruction.decode (machine.bus.read machine.registers.pc) =
      some ⟨.sta, .zeroPage⟩ := by
    rw [show machine.bus.read machine.registers.pc = 0x85 from Memory.read_write_same _ _ _]
    rfl
  exact ⟨running, countable, (step_semantics machine running countable).2 _ decoded⟩

end Cpu6502
