/-
What programs can do to the registers and the flags. No program moves the stack pointer, Y or
five of the flags. Zero and negative always speak of the register that the last load, transfer
or increment wrote, and of the value that it still has; stores, returns, faults and calls on a
halted machine leave all of it alone.
-/

import Cpu6502.Proofs.History
import Cpu6502.Proofs.Session
import Cpu6502.Proofs.Step

namespace Cpu6502

/-- A register in which an instruction can leave a result. -/
inductive Destination where
  | a
  | x
  deriving DecidableEq

def Registers.result (registers : Registers) : Destination → Byte
  | .a => registers.a
  | .x => registers.x

def Mnemonic.destination? : Mnemonic → Option Destination
  | .lda => some .a
  | .ldx | .tax | .inx => some .x
  | .sta | .stx | .ret => none

def lastDestination? (instructions : List Instruction) : Option Destination :=
  (instructions.filterMap fun instruction => instruction.mnemonic.destination?).getLast?

theorem lastDestination?_append (first second : List Instruction) :
    lastDestination? (first ++ second) = (lastDestination? second).or (lastDestination? first) := by
  rw [lastDestination?, List.filterMap_append, List.getLast?_append]
  rfl

namespace Registers

/-- What no instruction writes. -/
structure Undisturbed (before after : Registers) : Prop where
  sp : after.sp = before.sp
  y : after.y = before.y
  overflow : after.flags.overflow = before.flags.overflow
  breakCommand : after.flags.breakCommand = before.flags.breakCommand
  decimal : after.flags.decimal = before.flags.decimal
  interruptDisable : after.flags.interruptDisable = before.flags.interruptDisable
  carry : after.flags.carry = before.flags.carry

/-- The two flags describe the last result where it now stands. Without a result, they and
the registers for results are as before. -/
def Reports (last : Option Destination) (before after : Registers) : Prop :=
  match last with
  | some destination =>
      after.flags.zero = decide (after.result destination = 0) ∧
        after.flags.negative = (after.result destination).toNat.testBit 7
  | none =>
      after.a = before.a ∧ after.x = before.x ∧ after.flags.zero = before.flags.zero ∧
        after.flags.negative = before.flags.negative

/-- How registers go from one moment to a later one, with `last` written last in between. -/
structure Evolve (last : Option Destination) (before after : Registers) : Prop where
  undisturbed : Undisturbed before after
  reports : Reports last before after

variable {before middle after : Registers}

theorem Reports.negative_eq {destination : Destination} {value : Byte}
    (reports : Reports (some destination) before after)
    (result : after.result destination = value) :
    after.flags.negative = value.toNat.testBit 7 := by
  rw [← result]
  exact reports.2

theorem Evolve.refl (registers : Registers) : Evolve none registers registers :=
  ⟨⟨rfl, rfl, rfl, rfl, rfl, rfl, rfl⟩, rfl, rfl, rfl, rfl⟩

theorem Evolve.advance (registers : Registers) (count : Nat) :
    Evolve none registers (registers.advance count) :=
  ⟨⟨rfl, rfl, rfl, rfl, rfl, rfl, rfl⟩, rfl, rfl, rfl, rfl⟩

theorem Undisturbed.trans (first : Undisturbed before middle)
    (second : Undisturbed middle after) : Undisturbed before after where
  sp := second.sp.trans first.sp
  y := second.y.trans first.y
  overflow := second.overflow.trans first.overflow
  breakCommand := second.breakCommand.trans first.breakCommand
  decimal := second.decimal.trans first.decimal
  interruptDisable := second.interruptDisable.trans first.interruptDisable
  carry := second.carry.trans first.carry

theorem Reports.trans {earlier later : Option Destination} (first : Reports earlier before middle)
    (second : Reports later middle after) : Reports (later.or earlier) before after := by
  cases later with
  | some destination => exact second
  | none =>
      obtain ⟨a, x, zero, negative⟩ := second
      cases earlier with
      | none =>
          obtain ⟨firstA, firstX, firstZero, firstNegative⟩ := first
          exact ⟨a.trans firstA, x.trans firstX, zero.trans firstZero,
            negative.trans firstNegative⟩
      | some destination =>
          have kept : after.result destination = middle.result destination := by
            cases destination with
            | a => exact a
            | x => exact x
          change after.flags.zero = _ ∧ after.flags.negative = _
          rw [zero, negative, kept]
          exact first

theorem Evolve.trans {earlier later : Option Destination} (first : Evolve earlier before middle)
    (second : Evolve later middle after) : Evolve (later.or earlier) before after :=
  ⟨first.undisturbed.trans second.undisturbed, first.reports.trans second.reports⟩

theorem Evolve.execute {σ : Type u} [Bus σ] (instruction : Instruction) (registers : Registers)
    (bus : σ) :
    Evolve instruction.mnemonic.destination? registers
      (instruction.execute registers bus).1 := by
  have described := Flags.setZeroNegative_eq registers.flags
  unfold Instruction.execute
  cases instruction.mnemonic with
  | lda | ldx | tax | inx =>
      refine ⟨⟨rfl, rfl, rfl, rfl, rfl, rfl, rfl⟩, ?_, ?_⟩
      · exact congrArg Flags.zero (described _)
      · exact congrArg Flags.negative (described _)
  | sta | stx => exact Evolve.advance registers _
  | ret => exact Evolve.refl registers

end Registers

namespace Machine

variable {σ : Type u} [Bus σ]

theorem evolve_step (machine : Machine σ) :
    Registers.Evolve (lastDestination? machine.next?.toList) machine.registers
      machine.step.2.registers := by
  cases next : machine.next? with
  | none =>
      rcases (step_of_next?_none next).1 with same | passed
      · rw [same]
        exact Registers.Evolve.refl _
      · rw [passed]
        exact Registers.Evolve.advance _ 1
  | some instruction =>
      have single : lastDestination? [instruction] = instruction.mnemonic.destination? := by
        cases named : instruction.mnemonic.destination? <;> simp [lastDestination?, named]
      have executed := Registers.Evolve.execute instruction (machine.registers.advance 1)
        (Bus.read machine.bus machine.registers.pc).2
      rw [(step_of_next?_some next).1, Option.toList_some, single]
      simpa using (Registers.Evolve.advance machine.registers 1).trans executed

theorem evolve_after (machine : Machine σ) (count : Nat) :
    Registers.Evolve (lastDestination? (machine.executed count)) machine.registers
      (machine.after count).registers := by
  induction count with
  | zero => exact Registers.Evolve.refl _
  | succ count ih =>
      rw [after_add_one, executed_add_one, lastDestination?_append]
      exact ih.trans (machine.after count).evolve_step

end Machine

/-! ### From a reset on -/

theorem Registers.Evolve.status_of_reset {last : Option Destination} {pc : Address}
    {after : Registers} (evolved : Evolve last (atReset pc) after) :
    ¬ (after.flags.zero = true ∧ after.flags.negative = true) ∧
      (after.status = 0x20 ∨ after.status = 0x22 ∨ after.status = 0xA0) := by
  obtain ⟨undisturbed, reports⟩ := evolved
  have exclusive : ¬ (after.flags.zero = true ∧ after.flags.negative = true) := by
    rintro ⟨zero, negative⟩
    cases last with
    | none =>
        rw [reports.2.2.1] at zero
        cases zero
    | some destination =>
        rw [reports.1, decide_eq_true_eq] at zero
        rw [reports.negative_eq zero] at negative
        exact absurd negative (by decide)
  obtain ⟨_, _, overflow, breakCommand, decimal, interruptDisable, carry⟩ := undisturbed
  have packed : after.status.toNat =
      0x80 * after.flags.negative.toNat + 0x20 + 0x02 * after.flags.zero.toNat := by
    rw [status, Flags.toNat_pack, overflow, breakCommand, decimal, interruptDisable, carry]
    simp [atReset]
  refine ⟨exclusive, ?_⟩
  simp only [← UInt8.toNat_inj, packed]
  revert exclusive
  generalize after.flags.zero = zero
  generalize after.flags.negative = negative
  revert zero negative
  decide

namespace Machine

variable {σ : Type u} [Bus σ]

/-- A reset, or a load that succeeds, has just happened. -/
def Started (machine : Machine σ) : Prop :=
  ∃ before : Machine σ,
    machine = before.reset ∨ ∃ image, before.load image = (.ok (), machine)

theorem Started.registers_eq {machine : Machine σ} (started : machine.Started) :
    ∃ pc, machine.registers = Registers.atReset pc := by
  obtain ⟨before, rfl | ⟨image, loaded⟩⟩ := started
  · exact ⟨_, rfl⟩
  · rw [load] at loaded
    split at loaded
    · cases loaded
      exact ⟨_, rfl⟩
    · cases loaded

/-- Over a session of any calls, whatever they answer, only A, X, zero, negative and the
program counter move, and the two flags go with the last register written. -/
theorem registers_after_session (machine : Machine σ) (calls : List Call) :
    let final := (machine.performAll (calls.map Call.operation)).2
    machine.registers.Undisturbed final.registers ∧
      Registers.Reports (lastDestination? (machine.executed (machine.stepsIn calls)))
        machine.registers final.registers ∧
      (machine.Started →
        ¬ (final.registers.flags.zero = true ∧ final.registers.flags.negative = true) ∧
          (final.registers.status = 0x20 ∨ final.registers.status = 0x22 ∨
            final.registers.status = 0xA0)) := by
  intro final
  have evolved : Registers.Evolve (lastDestination? (machine.executed (machine.stepsIn calls)))
      machine.registers final.registers := by
    rw [show final = _ from performAll_calls_snd machine calls]
    exact machine.evolve_after _
  refine ⟨evolved.undisturbed, evolved.reports, ?_⟩
  intro started
  obtain ⟨pc, registers⟩ := started.registers_eq
  rw [registers] at evolved
  exact evolved.status_of_reset

private theorem executed_load_store_return {machine : Machine Memory}
    (registers : machine.registers = Registers.atReset 0) (state : machine.state = .running)
    (code : machine.bus.read 0 = 0xA9 ∧ machine.bus.read 1 = 0x80 ∧
      machine.bus.read 2 = 0x86 ∧ machine.bus.read 3 = 0x10 ∧ machine.bus.read 4 = 0x00) :
    lastDestination? (machine.executed (machine.stepsIn [.step, .run 1, .runToHalt 1])) =
        some .a ∧
      (machine.performAll ([Call.step, .run 1, .runToHalt 1].map Call.operation)).2.registers.result
        .a = 0x80 := by
  obtain ⟨_, _, steps, memory, journal⟩ := machine
  subst registers state
  simp [code, performAll, perform, stepsIn, stepsOf, Call.operation, executed, next?, run,
    runToHalt, settle, step, Memory.read_write, Instruction.decode, Instruction.execute,
    Mode.resolve, Mode.operandBytes, Registers.advance, Registers.atReset, Registers.loadA,
    Registers.setZeroNegative, Registers.result, lastDestination?, Mnemonic.destination?]

/-- The load sets the negative flag, and the store of X and the return after it leave the flag
to A. -/
theorem registers_after_session_of_load :
    let program := (((Memory.zero.write 0 0xA9).write 1 0x80).write 2 0x86).write 3 0x10
    let machine : Machine Memory :=
      (⟨{ x := 7 }, .halted, 5, program, .silent⟩ : Machine Memory).reset
    let final :=
      (machine.performAll ([Call.step, .run 1, .runToHalt 1].map Call.operation)).2
    machine.Started ∧
      lastDestination? (machine.executed (machine.stepsIn [.step, .run 1, .runToHalt 1])) =
        some .a ∧
      final.registers.result .a = 0x80 ∧ final.registers.flags.negative = true ∧
      (final.registers.status = 0x20 ∨ final.registers.status = 0x22 ∨
        final.registers.status = 0xA0) := by
  intro program machine final
  have started : machine.Started := ⟨_, Or.inl rfl⟩
  have registers : machine.registers = Registers.atReset 0 := by
    simp [machine, program, reset, Bus.readWord, Memory.read_write, resetVector, Address.ofBytes]
  obtain ⟨last, loaded⟩ := executed_load_store_return registers rfl
    (by simp [machine, program, reset, Bus.readWord, Memory.read_write])
  have session := registers_after_session machine [.step, .run 1, .runToHalt 1]
  have reached :
      (machine.performAll ([Call.step, .run 1, .runToHalt 1].map Call.operation)).2 = final := rfl
  rw [reached] at loaded
  rw [last, reached] at session
  clear_value final
  obtain ⟨_, reports, status⟩ := session
  exact ⟨started, last, loaded, reports.negative_eq loaded, (status started).2⟩

end Machine

end Cpu6502
