/-
What a host sees on its bus. Each byte of an instruction is read once and in order, then the
pointer of an indirect mode, and last comes the one access that the instruction is for, so
that a device is never touched by accident. Nothing is written but by stores, each as the last
access of its step, and by loads.
-/

import Cpu6502.Bus.Mapped
import Cpu6502.Proofs.Dialogue

namespace Cpu6502

/-- Reads at ascending addresses. -/
def Access.reads (start : Address) : List Byte → List Access
  | [] => []
  | value :: rest => .read start value :: reads (start + 1) rest

/-- Writes at ascending addresses. -/
def Access.writes (start : Address) : List Byte → List Access
  | [] => []
  | value :: rest => .write start value :: writes (start + 1) rest

theorem Access.length_reads (start : Address) (values : List Byte) :
    (reads start values).length = values.length := by
  induction values generalizing start with
  | nil => rfl
  | cons value rest ih => exact congrArg (· + 1) (ih (start + 1))

theorem Access.write_not_mem_reads (start : Address) (values : List Byte) (target : Address)
    (value : Byte) : .write target value ∉ reads start values := by
  induction values generalizing start with
  | nil => exact List.not_mem_nil
  | cons first rest ih =>
      intro member
      rcases List.mem_cons.mp member with same | later
      · cases same
      · exact ih (start + 1) later

/-- Where an indirect mode finds its pointer. -/
def Mode.pointer? (mode : Mode) (registers : Registers) (operand : Byte) : Option Address :=
  match mode with
  | .indirectX => some (operand + registers.x).toUInt16
  | .indirectY => some operand.toUInt16
  | .implicit | .immediate | .zeroPage | .zeroPageX | .zeroPageY | .absolute | .absoluteX
  | .absoluteY => none

/-- The access for which an instruction computes its effective address. -/
def Instruction.Reaches (instruction : Instruction) (registers : Registers) (target : Address)
    (access : Access) : Prop :=
  match instruction.mnemonic with
  | .lda | .ldx => ∃ value, access = .read target value
  | .sta => access = .write target registers.a
  | .stx => access = .write target registers.x
  | .tax | .inx | .ret => False

/-- The accesses that an instruction at the program counter makes after its opcode. -/
inductive Instruction.Accesses (instruction : Instruction) (registers : Registers)
    (target : Address) : List Access → Prop
  | implicit (mode : instruction.mode = .implicit) : Accesses instruction registers target []
  /-- The operand is the data, and is read once. -/
  | immediate (mode : instruction.mode = .immediate) (value : Byte) :
      Accesses instruction registers target [.read (registers.pc + 1) value]
  | direct (mode : instruction.mode ≠ .implicit ∧ instruction.mode ≠ .immediate)
      (operands : List Byte) (count : operands.length = instruction.mode.operandBytes)
      (unpointed : ∀ operand, instruction.mode.pointer? registers operand = none)
      (last : Access) (reaches : instruction.Reaches registers target last) :
      Accesses instruction registers target (Access.reads (registers.pc + 1) operands ++ [last])
  | indirect (operand low high : Byte) (pointer : Address)
      (points : instruction.mode.pointer? registers operand = some pointer)
      (last : Access) (reaches : instruction.Reaches registers target last) :
      Accesses instruction registers target
        [.read (registers.pc + 1) operand, .read pointer low, .read (pointer + 1) high, last]

namespace Instruction.Accesses

variable {instruction : Instruction} {registers : Registers} {target : Address}
  {accesses : List Access}

theorem length_le (follows : instruction.Accesses registers target accesses) :
    accesses.length ≤ 4 := by
  cases follows with
  | implicit mode => exact Nat.zero_le 4
  | immediate mode value => exact Nat.le_of_ble_eq_true rfl
  | direct mode operands count unpointed last reaches =>
      have bound : instruction.mode.operandBytes ≤ 2 := by
        cases instruction.mode <;> decide
      rw [List.length_append, Access.length_reads, count, List.length_singleton]
      omega
  | indirect operand low high pointer points last reaches => exact Nat.le_refl 4

theorem write_not_mem_dropLast (follows : instruction.Accesses registers target accesses)
    (address : Address) (value : Byte) : .write address value ∉ accesses.dropLast := by
  cases follows with
  | implicit mode => exact List.not_mem_nil
  | immediate mode value => exact List.not_mem_nil
  | direct mode operands count unpointed last reaches =>
      rw [List.dropLast_concat]
      exact Access.write_not_mem_reads _ _ _ _
  | indirect operand low high pointer points last reaches => simp

end Instruction.Accesses

section

variable {σ : Type u} [Bus σ]

/-- Resolving reads the operand of a mode and its pointer, and nothing at the address that it
resolves to. -/
theorem Mode.accesses_dialogue (mode : Mode) (registers : Registers) (bus : σ) :
    (mode = .implicit ∨ mode = .immediate) ∧
      (mode.dialogue (registers.advance 1)).accesses bus = [] ∨
    (mode ≠ .implicit ∧ mode ≠ .immediate) ∧
      (∀ operand, mode.pointer? registers operand = none) ∧
      (∃ operands : List Byte, operands.length = mode.operandBytes ∧
        (mode.dialogue (registers.advance 1)).accesses bus =
          Access.reads (registers.pc + 1) operands) ∨
    ∃ operand low high pointer, mode.pointer? registers operand = some pointer ∧
      (mode.dialogue (registers.advance 1)).accesses bus =
        [.read (registers.pc + 1) operand, .read pointer low, .read (pointer + 1) high] := by
  cases mode with
  | implicit | immediate =>
      left
      exact ⟨by decide, rfl⟩
  | zeroPage | zeroPageX | zeroPageY =>
      right
      left
      exact ⟨by decide, fun _ => rfl, [_], rfl, rfl⟩
  | absolute | absoluteX | absoluteY =>
      right
      left
      exact ⟨by decide, fun _ => rfl, [_, _], rfl, rfl⟩
  | indirectX | indirectY =>
      right
      right
      exact ⟨_, _, _, _, rfl, rfl⟩

/-- After resolving its operand, an instruction makes one more access. -/
theorem Instruction.accesses_dialogue_of_operand (instruction : Instruction)
    (registers : Registers) (bus : σ)
    (operand : ¬ (instruction.mnemonic = .tax ∨ instruction.mnemonic = .inx ∨
      instruction.mnemonic = .ret)) :
    ∃ last,
      (instruction.dialogue (registers.advance 1)).accesses bus =
          (instruction.mode.dialogue (registers.advance 1)).accesses bus ++ [last] ∧
        instruction.Reaches registers (instruction.mode.resolve (registers.advance 1) bus).1
          last := by
  unfold Instruction.dialogue Instruction.Reaches
  rw [Mode.resolve_eq_hold]
  cases named : instruction.mnemonic with
  | lda | ldx =>
      simp only [Dialogue.accesses_bind]
      exact ⟨_, rfl, _, rfl⟩
  | sta | stx =>
      simp only [Dialogue.accesses_bind]
      exact ⟨_, rfl, rfl⟩
  | tax | inx | ret => simp [named] at operand

/-- Only loads have an immediate operand, and their last access reads it. -/
theorem Instruction.accesses_dialogue {opcode : Byte} {instruction : Instruction}
    (decoded : Instruction.decode opcode = some instruction) (registers : Registers) (bus : σ) :
    instruction.Accesses registers (instruction.mode.resolve (registers.advance 1) bus).1
      ((instruction.dialogue (registers.advance 1)).accesses bus) := by
  have implicit := Instruction.mode_eq_implicit_iff decoded
  by_cases bare : instruction.mode = .implicit
  · have silent : (instruction.dialogue (registers.advance 1)).accesses bus = [] := by
      unfold Instruction.dialogue
      rcases implicit.mp bare with named | named | named <;> rw [named] <;> rfl
    rw [silent]
    exact .implicit bare
  · obtain ⟨last, accesses, reaches⟩ := instruction.accesses_dialogue_of_operand
      registers bus (mt implicit.mpr bare)
    rw [accesses]
    rcases instruction.mode.accesses_dialogue registers bus with
      ⟨unread, resolved⟩ | ⟨mode, unpointed, operands, count, resolved⟩ |
        ⟨operand, low, high, pointer, points, resolved⟩
    · have immediate := unread.resolve_left bare
      rw [resolved, List.nil_append]
      cases named : instruction.mnemonic with
      | lda | ldx =>
          rw [Reaches, named, immediate] at reaches
          obtain ⟨value, rfl⟩ := reaches
          exact .immediate immediate value
      | sta => exact absurd immediate (mode_ne_immediate decoded (Or.inl named))
      | stx => exact absurd immediate (mode_ne_immediate decoded (Or.inr named))
      | tax | inx | ret => exact absurd (implicit.mpr (by simp [named])) bare
    · rw [resolved]
      exact .direct mode operands count unpointed last reaches
    · rw [resolved]
      exact .indirect operand low high pointer points last reaches

theorem Processor.accesses_step_of_undecoded (registers : Registers) (steps : UInt64) (bus : σ)
    (undecoded : Instruction.decode (Bus.read bus registers.pc).1 = none) :
    (Processor.step ⟨registers, .running, steps⟩).accesses bus =
      [.read registers.pc (Bus.read bus registers.pc).1] := by
  simp only [Processor.step, Dialogue.accesses, undecoded]

theorem Processor.accesses_step_of_decoded (registers : Registers) (steps : UInt64) (bus : σ)
    {instruction : Instruction}
    (decoded : Instruction.decode (Bus.read bus registers.pc).1 = some instruction) :
    (Processor.step ⟨registers, .running, steps⟩).accesses bus =
      .read registers.pc (Bus.read bus registers.pc).1 ::
        (instruction.dialogue (registers.advance 1)).accesses (Bus.read bus registers.pc).2 := by
  simp only [Processor.step, Dialogue.accesses, decoded, Dialogue.accesses_bind]
  by_cases returns : instruction.mnemonic = .ret
  · simp only [if_pos returns, Dialogue.accesses, List.append_nil]
  · simp only [if_neg returns, Dialogue.accesses, List.append_nil]

theorem Dialogue.accesses_writeAll {α : Type} (next : Dialogue α) (start : Address)
    (values : List Byte) (bus : σ) :
    (next.writeAll start values).accesses bus =
      Access.writes start values ++ next.accesses (Bus.writeAll bus start values) := by
  induction values generalizing start bus with
  | nil => rfl
  | cons value rest ih =>
      exact congrArg (List.cons _) (ih (start + 1) (Bus.write bus start value))

namespace Machine

/-- What has been seen on the bus. -/
def seen (machine : Machine (Traced σ)) : List Access :=
  machine.bus.accesses.toList

/-- The machine between the fetch of an opcode and its execution. -/
def pastOpcode (machine : Machine σ) : Machine σ :=
  { machine with
    registers := machine.registers.advance 1
    bus := (Bus.read machine.bus machine.registers.pc).2 }

theorem seen_step (machine : Machine σ) :
    machine.traced.step.2.seen = machine.processor.step.accesses machine.bus := by
  rw [step_eq_engage]
  exact accesses_engage_traced machine _

theorem seen_step_of_halted {machine : Machine σ} (halted : machine.state = .halted) :
    machine.traced.step.2.seen = [] := by
  rw [seen_step, processor, halted]
  rfl

theorem seen_step_of_running {machine : Machine σ} (running : machine.state = .running) :
    let opcode := (Bus.read machine.bus machine.registers.pc).1
    ∃ rest, machine.traced.step.2.seen = .read machine.registers.pc opcode :: rest ∧
      (Instruction.decode opcode = none → rest = []) ∧
      ∀ instruction, Instruction.decode opcode = some instruction →
        instruction.Accesses machine.registers
          (machine.pastOpcode.effectiveAddress instruction.mode).1 rest := by
  intro opcode
  rw [seen_step, processor, running]
  cases decoded : Instruction.decode opcode with
  | none =>
      refine ⟨[], Processor.accesses_step_of_undecoded _ _ _ decoded, fun _ => rfl, ?_⟩
      intro instruction impossible
      cases impossible
  | some instruction =>
      refine ⟨_, Processor.accesses_step_of_decoded _ _ _ decoded, ?_, ?_⟩
      · intro impossible
        cases impossible
      · intro other same
        cases same
        exact Instruction.accesses_dialogue decoded machine.registers
          (Bus.read machine.bus machine.registers.pc).2

theorem seen_reset (machine : Machine σ) :
    ∃ low high, machine.traced.reset.seen = [.read 0xFFFC low, .read 0xFFFD high] := by
  rw [reset_eq_engage]
  exact ⟨_, _, accesses_engage_traced machine Processor.reset⟩

theorem seen_load (machine : Machine σ) (image : List Byte) :
    (machine.traced.load image).2.seen = (machine.processor.load image).accesses machine.bus := by
  rw [load_eq_engage]
  exact accesses_engage_traced machine _

theorem seen_load_of_fits (machine : Machine σ) {image : List Byte}
    (fits : image.length ≤ programCapacity) :
    ∃ low high, (machine.traced.load image).2.seen =
      Access.writes programStart image ++
        [.write 0xFFFC 0x00, .write 0xFFFD 0x80, .read 0xFFFC low, .read 0xFFFD high] := by
  rw [seen_load, Processor.load, if_pos fits, Dialogue.accesses_writeAll]
  exact ⟨_, _, rfl⟩

theorem seen_load_of_not_fits (machine : Machine σ) {image : List Byte}
    (large : programCapacity < image.length) : (machine.traced.load image).2.seen = [] := by
  rw [seen_load, Processor.load, if_neg (Nat.not_le.mpr large)]
  rfl

/-- Every access that a host sees, in its order. A step reads the opcode and then accesses what
its instruction asks for; a reset reads the vector; a load writes the image and the vector,
and then resets. -/
theorem bus_discipline (machine : Machine σ) :
    (machine.state = .halted → machine.traced.step.2.seen = []) ∧
    (machine.state = .running →
      let opcode := (Bus.read machine.bus machine.registers.pc).1
      ∃ rest, machine.traced.step.2.seen = .read machine.registers.pc opcode :: rest ∧
        (Instruction.decode opcode = none → rest = []) ∧
        (∀ instruction, Instruction.decode opcode = some instruction →
          instruction.Accesses machine.registers
            (machine.pastOpcode.effectiveAddress instruction.mode).1 rest) ∧
        machine.traced.step.2.seen.length ≤ 5 ∧
        ∀ address value, .write address value ∉ machine.traced.step.2.seen.dropLast) ∧
    (∃ low high, machine.traced.reset.seen = [.read 0xFFFC low, .read 0xFFFD high]) ∧
    ∀ image : List Byte,
      (image.length ≤ 0x8000 → ∃ low high,
        (machine.traced.load image).2.seen =
          Access.writes 0x8000 image ++
            [.write 0xFFFC 0x00, .write 0xFFFD 0x80, .read 0xFFFC low, .read 0xFFFD high]) ∧
      (0x8000 < image.length → (machine.traced.load image).2.seen = []) := by
  refine ⟨seen_step_of_halted, ?_, machine.seen_reset, ?_⟩
  · intro running opcode
    obtain ⟨rest, seen, undecoded, follows⟩ := seen_step_of_running running
    refine ⟨rest, seen, undecoded, follows, ?_⟩
    rw [seen]
    cases decoded : Instruction.decode opcode with
    | none =>
        rw [undecoded decoded]
        exact ⟨Nat.succ_le_succ (Nat.zero_le 4), fun _ _ => List.not_mem_nil⟩
    | some instruction =>
        have accesses := follows instruction decoded
        refine ⟨Nat.succ_le_succ accesses.length_le, ?_⟩
        intro address value member
        cases rest with
        | nil => cases member
        | cons second others =>
            rw [List.dropLast_cons_cons, List.mem_cons] at member
            rcases member with same | later
            · cases same
            · exact accesses.write_not_mem_dropLast address value later
  · intro image
    exact ⟨machine.seen_load_of_fits, machine.seen_load_of_not_fits⟩

end Machine

end

/-- A store through a pointer at the top of memory, on a bus that drops the write, and a load
into the part that cannot be written. -/
theorem Machine.bus_discipline_read_only :
    let bus : Mapped := { memory := Memory.zero.write 0xFFFF 0x91, readOnlyFrom := 0 }
    let machine : Machine Mapped := ⟨{ pc := 0xFFFF, a := 7, y := 2 }, .running, 0, bus, .silent⟩
    machine.state = .running ∧
      Instruction.decode (Bus.read machine.bus machine.registers.pc).1 =
        some ⟨.sta, .indirectY⟩ ∧
      (∃ operand low high target, machine.traced.step.2.seen =
        [.read 0xFFFF 0x91, .read 0x0000 operand, .read operand.toUInt16 low,
          .read (operand.toUInt16 + 1) high, .write target 7]) ∧
      ∃ low high, (machine.traced.load [0xE8]).2.seen =
        [.write 0x8000 0xE8, .write 0xFFFC 0x00, .write 0xFFFD 0x80, .read 0xFFFC low,
          .read 0xFFFD high] := by
  intro bus machine
  have opcode : (Bus.read machine.bus machine.registers.pc).1 = 0x91 := by
    change bus.memory.read (bus.select 0xFFFF) = 0x91
    rw [show bus.select 0xFFFF = 0xFFFF by decide]
    exact Memory.read_write_same _ _ _
  have decoded : Instruction.decode (Bus.read machine.bus machine.registers.pc).1 =
      some ⟨.sta, .indirectY⟩ := by
    rw [opcode]
    rfl
  obtain ⟨_, steps, _, loads⟩ := bus_discipline machine
  obtain ⟨rest, seen, _, follows, _⟩ := steps rfl
  refine ⟨rfl, decoded, ?_, (loads [0xE8]).1 (by decide)⟩
  rw [seen, opcode]
  cases follows _ decoded with
  | implicit mode => cases mode
  | immediate mode value => cases mode
  | direct mode operands count unpointed last reaches => cases unpointed 0
  | indirect operand low high pointer points last reaches =>
      cases points
      cases reaches
      have wrapped : machine.registers.pc + 1 = 0x0000 := by decide
      rw [wrapped]
      exact ⟨operand, low, high, _, rfl⟩

end Cpu6502
