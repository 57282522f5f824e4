/-
A load directly behind a store of the same register, with the same mode and operand, gives back
what was stored. The store may go over any byte but those of the load and those of the pointer
that leads the load to its target, so it may go over its own instruction.
-/

import Cpu6502.Proofs.BusDiscipline
import Cpu6502.Proofs.Results

namespace Cpu6502

def Destination.store : Destination → Mnemonic
  | .a => .sta
  | .x => .stx

def Destination.load : Destination → Mnemonic
  | .a => .lda
  | .x => .ldx

def Registers.receive (registers : Registers) : Destination → Byte → Registers
  | .a => registers.loadA
  | .x => registers.loadX

@[simp] theorem Registers.advance_y (registers : Registers) (count : Nat) :
    (registers.advance count).y = registers.y := rfl

/-- Where an operand leads is decided by its own bytes, the index registers and the bytes of
its pointer. -/
theorem Mode.address_congr {mode : Mode} {registers : Registers} {first second : Nat}
    {before after : Memory} (explicit : mode ≠ .implicit ∧ mode ≠ .immediate)
    (operand : ∀ index < mode.operandBytes,
      after.read (registers.advance (second + index)).pc =
        before.read (registers.advance (first + index)).pc)
    (pointer : ∀ place,
      mode.pointer? registers (before.read (registers.advance first).pc) = some place →
        after.read place = before.read place ∧ after.read (place + 1) = before.read (place + 1)) :
    mode.address (registers.advance second) after =
      mode.address (registers.advance first) before := by
  have low (has : 0 < mode.operandBytes) :
      after.read (registers.advance second).pc = before.read (registers.advance first).pc :=
    operand 0 has
  have high (has : 1 < mode.operandBytes) :
      after.read ((registers.advance second).pc + 1) =
        before.read ((registers.advance first).pc + 1) := by
    have same := operand 1 has
    rwa [← Registers.advance_advance, ← Registers.advance_advance] at same
  cases mode with
  | implicit | immediate => simp at explicit
  | zeroPage | zeroPageX | zeroPageY =>
      simp only [address, resolve, Bus.read_memory, low (by decide), Registers.advance_x,
        Registers.advance_y]
  | absolute | absoluteX | absoluteY =>
      simp only [address, resolve, Bus.readWord, Bus.read_memory, low (by decide),
        high (by decide), Registers.advance_x, Registers.advance_y]
  | indirectX | indirectY =>
      obtain ⟨pointerLow, pointerHigh⟩ := pointer _ rfl
      simp only [address, resolve, Bus.readWord, Bus.read_memory, low (by decide),
        Registers.advance_x, Registers.advance_y, pointerLow, pointerHigh]

namespace Machine

/-- The address so many bytes behind the program counter, around the end of the address
space. -/
def ahead (machine : Machine Memory) (count : Nat) : Address :=
  (machine.registers.advance count).pc

/-- At the program counter stands a store, and behind it the load of the same register in the
same mode with the same operand. -/
structure StoreThenLoad (machine : Machine Memory) (register : Destination) (mode : Mode) :
    Prop where
  store : Instruction.decode machine.opcode = some ⟨register.store, mode⟩
  load : Instruction.decode (machine.bus.read (machine.ahead (mode.operandBytes + 1))) =
    some ⟨register.load, mode⟩
  operand : ∀ index < mode.operandBytes,
    machine.bus.read (machine.ahead (mode.operandBytes + 1 + (1 + index))) =
      machine.bus.read (machine.ahead (1 + index))

/-- The store goes neither over the load behind it nor over the pointer that both follow. -/
structure SparesLoad (machine : Machine Memory) (mode : Mode) : Prop where
  code : ∀ index ≤ mode.operandBytes,
    machine.target mode ≠ machine.ahead (mode.operandBytes + 1 + index)
  pointer : ∀ place,
    mode.pointer? machine.registers (machine.bus.read (machine.ahead 1)) = some place →
      machine.target mode ≠ place ∧ machine.target mode ≠ place + 1

variable {machine : Machine Memory} {register : Destination} {mode : Mode}

theorem step_of_store (running : machine.state = .running)
    (store : Instruction.decode machine.opcode = some ⟨register.store, mode⟩) :
    machine.step.1 = .ok .running ∧ machine.step.2.state = .running ∧
      machine.step.2.registers = machine.registers.advance (mode.operandBytes + 1) ∧
      machine.step.2.bus =
        machine.bus.write (machine.target mode) (machine.registers.result register) := by
  rw [step_of_decoded running store]
  cases register <;> exact ⟨rfl, rfl, rfl, rfl⟩

theorem step_of_load (running : machine.state = .running)
    (load : Instruction.decode machine.opcode = some ⟨register.load, mode⟩) :
    machine.step.1 = .ok .running ∧ machine.step.2.state = .running ∧
      machine.step.2.registers =
        (machine.registers.advance (mode.operandBytes + 1)).receive register
          (machine.bus.read (machine.target mode)) ∧
      machine.step.2.bus = machine.bus := by
  rw [step_of_decoded running load]
  cases register <;> exact ⟨rfl, rfl, rfl, rfl⟩

namespace StoreThenLoad

theorem mode_ne (code : machine.StoreThenLoad register mode) :
    mode ≠ .implicit ∧ mode ≠ .immediate := by
  have implicit := Instruction.mode_eq_implicit_iff code.store
  have immediate := Instruction.mode_ne_immediate code.store
  cases register with
  | a => exact ⟨by simpa [Destination.store] using implicit, immediate (Or.inl rfl)⟩
  | x => exact ⟨by simpa [Destination.store] using implicit, immediate (Or.inr rfl)⟩

/-- Behind the store, the load stands as it stood before. -/
theorem opcode_step (code : machine.StoreThenLoad register mode)
    (spared : machine.SparesLoad mode) (running : machine.state = .running) :
    Instruction.decode machine.step.2.opcode = some ⟨register.load, mode⟩ := by
  obtain ⟨_, _, registers, bus⟩ := step_of_store running code.store
  have kept := Memory.read_write_of_ne machine.bus (machine.registers.result register)
    (spared.code 0 (Nat.zero_le _))
  rw [opcode, registers, bus]
  exact (congrArg Instruction.decode kept).trans code.load

/-- The load finds its way to where the store went. -/
theorem target_step (code : machine.StoreThenLoad register mode)
    (spared : machine.SparesLoad mode) (running : machine.state = .running) :
    machine.step.2.target mode = machine.target mode := by
  obtain ⟨_, _, registers, bus⟩ := step_of_store running code.store
  rw [target_eq, target_eq, registers, bus, Registers.advance_advance]
  apply Mode.address_congr code.mode_ne
  · intro index within
    have kept := Memory.read_write_of_ne machine.bus (machine.registers.result register)
      (spared.code (1 + index) (by omega))
    rw [Nat.add_assoc (mode.operandBytes + 1)]
    exact kept.trans (code.operand index within)
  · intro place points
    obtain ⟨low, high⟩ := spared.pointer place points
    exact ⟨Memory.read_write_of_ne _ _ low, Memory.read_write_of_ne _ _ high⟩

end StoreThenLoad

/-- A store and the load behind it, which it spares, leave the registers as they were but for
the two flags, which speak of the value; and memory holds the value at the target. -/
theorem load_after_store (machine : Machine Memory) (register : Destination) (mode : Mode)
    (running : machine.state = .running) (code : machine.StoreThenLoad register mode)
    (spared : machine.SparesLoad mode) :
    let value := machine.registers.result register
    let final := machine.step.2.step.2
    machine.step.1 = .ok .running ∧ machine.step.2.step.1 = .ok .running ∧
      final.registers =
        { machine.registers with
          pc := final.registers.pc
          flags := { machine.registers.flags with
            zero := value = 0, negative := value.toNat.testBit 7 } } ∧
      final.registers.pc.toNat =
        (machine.registers.pc.toNat + 2 * (mode.operandBytes + 1)) % 65536 ∧
      final.bus.read (machine.target mode) = value ∧
      ∀ address, address ≠ machine.target mode →
        final.bus.read address = machine.bus.read address := by
  intro value final
  obtain ⟨stored, goes, registers, bus⟩ := step_of_store running code.store
  obtain ⟨loaded, _, received, unchanged⟩ :=
    step_of_load goes (code.opcode_step spared running)
  rw [code.target_step spared running, registers, bus, Memory.read_write_same,
    Registers.advance_advance, ← Nat.two_mul] at received
  rw [bus] at unchanged
  have moved := machine.registers.toNat_pc_advance (2 * (mode.operandBytes + 1))
  refine ⟨stored, loaded, ?_, ?_, ?_, ?_⟩
  · rw [received, ← Flags.setZeroNegative_eq]
    cases register <;> rfl
  · rw [received, ← moved]
    cases register <;> rfl
  · rw [unchanged]
    exact Memory.read_write_same _ _ _
  · intro address other
    rw [unchanged]
    exact Memory.read_write_of_ne _ _ (Ne.symm other)

private theorem spares_load_at_top {machine : Machine Memory}
    (registers : machine.registers = { pc := 0xFFFF, a := 0x80, y := 0x10 })
    (code : machine.bus.read 0xFFFF = 0x91 ∧ machine.bus.read 0x0000 = 0x40 ∧
      machine.bus.read 0x0001 = 0xB1 ∧ machine.bus.read 0x0002 = 0x40)
    (pointer : machine.bus.read 0x0040 = 0xF0 ∧ machine.bus.read 0x0041 = 0xFF) :
    machine.target .indirectY = 0x0000 ∧ machine.StoreThenLoad .a .indirectY ∧
      machine.SparesLoad .indirectY := by
  have behind (count : Nat) : machine.ahead count = 0xFFFF + UInt16.ofNat count := by
    rw [ahead, registers]
    rfl
  have target : machine.target .indirectY = 0x0000 := by
    simp [target_eq, registers, Mode.address, Mode.resolve, Registers.advance, Bus.readWord, code,
      pointer, Address.ofBytes]
  refine ⟨target, ⟨?_, ?_, ?_⟩, ?_, ?_⟩
  · rw [opcode, registers, code.1]
    rfl
  · rw [behind]
    exact (congrArg Instruction.decode code.2.2.1).trans rfl
  · intro index within
    obtain rfl : index = 0 := Nat.lt_one_iff.mp within
    rw [behind, behind]
    exact code.2.2.2.trans code.2.1.symm
  · intro index within
    rw [target, behind]
    obtain rfl | rfl : index = 0 ∨ index = 1 := Nat.le_one_iff_eq_zero_or_eq_one.mp within
    · decide
    · decide
  · intro place points
    have operand : machine.bus.read (machine.ahead 1) = 0x40 := by
      rw [behind]
      exact code.2.1
    rw [operand] at points
    cases points
    rw [target]
    decide

/-- A store at the top of memory goes over its own operand at the bottom, and the load behind it
still finds the way through the pointer. -/
theorem load_after_store_wrapped :
    let code := ((Memory.zero.write 0xFFFF 0x91).write 0x0000 0x40).write 0x0001 0xB1
    let memory := ((code.write 0x0002 0x40).write 0x0040 0xF0).write 0x0041 0xFF
    let machine : Machine Memory :=
      ⟨{ pc := 0xFFFF, a := 0x80, y := 0x10 }, .running, 0, memory, .silent⟩
    machine.target .indirectY = 0x0000 ∧ machine.StoreThenLoad .a .indirectY ∧
      machine.SparesLoad .indirectY ∧ machine.step.2.step.1 = .ok .running ∧
      machine.step.2.step.2.registers =
        { pc := 0x0003, a := 0x80, y := 0x10, flags := { negative := true } } ∧
      machine.step.2.step.2.bus.read 0x0000 = 0x80 := by
  intro code memory machine
  have begun : machine.registers = { pc := 0xFFFF, a := 0x80, y := 0x10 } := rfl
  have running : machine.state = .running := rfl
  obtain ⟨target, pair, spared⟩ := spares_load_at_top begun
    (by simp [machine, memory, code, Memory.read_write])
    (by simp [machine, memory, code, Memory.read_write])
  clear_value machine
  obtain ⟨_, loaded, registers, moved, stored, _⟩ :=
    load_after_store machine .a .indirectY running pair spared
  rw [begun] at registers moved stored
  have pc : machine.step.2.step.2.registers.pc = 0x0003 := UInt16.toNat_inj.mp moved
  rw [pc] at registers
  rw [target] at stored
  exact ⟨target, pair, spared, loaded, registers.trans (by decide), stored⟩

end Machine

end Cpu6502
