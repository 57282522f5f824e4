/-
The instruction set. A byte either stands for one instruction, which is a
mnemonic with an addressing mode, or for none.
-/

import Cpu6502.Word

namespace Cpu6502

inductive Mode where
  | implicit
  | immediate
  | zeroPage
  | zeroPageX
  | zeroPageY
  | absolute
  | absoluteX
  | absoluteY
  | indirectX
  | indirectY
  deriving DecidableEq

def Mode.name : Mode → String
  | .implicit => "Implicit"
  | .immediate => "Immediate"
  | .zeroPage => "ZeroPage"
  | .zeroPageX => "ZeroPageX"
  | .zeroPageY => "ZeroPageY"
  | .absolute => "Absolute"
  | .absoluteX => "AbsoluteX"
  | .absoluteY => "AbsoluteY"
  | .indirectX => "IndirectX"
  | .indirectY => "IndirectY"

/-- The number of bytes that follow the opcode. -/
def Mode.operandBytes : Mode → Nat
  | .implicit => 0
  | .absolute | .absoluteX | .absoluteY => 2
  | .immediate | .zeroPage | .zeroPageX | .zeroPageY | .indirectX | .indirectY => 1

inductive Mnemonic where
  | lda
  | ldx
  | sta
  | stx
  | tax
  | inx
  | ret
  deriving DecidableEq

def Mnemonic.name : Mnemonic → String
  | .lda => "LDA"
  | .ldx => "LDX"
  | .sta => "STA"
  | .stx => "STX"
  | .tax => "TAX"
  | .inx => "INX"
  | .ret => "RET"

structure Instruction where
  mnemonic : Mnemonic
  mode : Mode
  deriving DecidableEq

def Instruction.size (instruction : Instruction) : Nat :=
  instruction.mode.operandBytes + 1

def Instruction.decode : Byte → Option Instruction
  | 0x00 => some ⟨.ret, .implicit⟩
  | 0x81 => some ⟨.sta, .indirectX⟩
  | 0x85 => some ⟨.sta, .zeroPage⟩
  | 0x8D => some ⟨.sta, .absolute⟩
  | 0x91 => some ⟨.sta, .indirectY⟩
  | 0x95 => some ⟨.sta, .zeroPageX⟩
  | 0x99 => some ⟨.sta, .absoluteY⟩
  | 0x9D => some ⟨.sta, .absoluteX⟩
  | 0x86 => some ⟨.stx, .zeroPage⟩
  | 0x8E => some ⟨.stx, .absolute⟩
  | 0x96 => some ⟨.stx, .zeroPageY⟩
  | 0xA1 => some ⟨.lda, .indirectX⟩
  | 0xA5 => some ⟨.lda, .zeroPage⟩
  | 0xA9 => some ⟨.lda, .immediate⟩
  | 0xAD => some ⟨.lda, .absolute⟩
  | 0xB1 => some ⟨.lda, .indirectY⟩
  | 0xB5 => some ⟨.lda, .zeroPageX⟩
  | 0xB9 => some ⟨.lda, .absoluteY⟩
  | 0xBD => some ⟨.lda, .absoluteX⟩
  | 0xA2 => some ⟨.ldx, .immediate⟩
  | 0xA6 => some ⟨.ldx, .zeroPage⟩
  | 0xAE => some ⟨.ldx, .absolute⟩
  | 0xB6 => some ⟨.ldx, .zeroPageY⟩
  | 0xBE => some ⟨.ldx, .absoluteY⟩
  | 0xAA => some ⟨.tax, .implicit⟩
  | 0xE8 => some ⟨.inx, .implicit⟩
  | _ => none

/-- What each of the 256 bytes stands for, indexed by the byte. -/
def Instruction.table : Vector (Option Instruction) 256 :=
  Vector.ofFn (fun index => Instruction.decode (UInt8.ofNat index.val))

def Instruction.defined : List (Byte × Instruction) :=
  (List.range 256).filterMap fun index =>
    (Instruction.decode (UInt8.ofNat index)).map (fun instruction => (UInt8.ofNat index, instruction))

/-! ### Which byte stands for an instruction -/

/-- The column of a mode among the bytes that load or store A. -/
def Mode.columnOfA? : Mode → Option Byte
  | .indirectX => some 0
  | .zeroPage => some 1
  | .immediate => some 2
  | .absolute => some 3
  | .indirectY => some 4
  | .zeroPageX => some 5
  | .absoluteY => some 6
  | .absoluteX => some 7
  | .implicit | .zeroPageY => none

/-- The column of a mode among the bytes that load or store X. -/
def Mode.columnOfX? : Mode → Option Byte
  | .immediate => some 0
  | .zeroPage => some 1
  | .absolute => some 3
  | .zeroPageY => some 5
  | .absoluteY => some 7
  | .implicit | .zeroPageX | .absoluteX | .indirectX | .indirectY => none

/-- The byte that stands for an instruction. Those that load or store one register form a row,
with four bytes from column to column. There is no store to an immediate operand, and X is not
stored with an index on an absolute address. -/
def Instruction.encode? : Instruction → Option Byte
  | ⟨.lda, mode⟩ => mode.columnOfA?.map fun column => 0xA1 + 4 * column
  | ⟨.ldx, mode⟩ => mode.columnOfX?.map fun column => 0xA2 + 4 * column
  | ⟨.sta, .immediate⟩ | ⟨.stx, .immediate⟩ | ⟨.stx, .absoluteY⟩ => none
  | ⟨.sta, mode⟩ => mode.columnOfA?.map fun column => 0x81 + 4 * column
  | ⟨.stx, mode⟩ => mode.columnOfX?.map fun column => 0x82 + 4 * column
  | ⟨.tax, .implicit⟩ => some 0xAA
  | ⟨.inx, .implicit⟩ => some 0xE8
  | ⟨.ret, .implicit⟩ => some 0x00
  | ⟨.tax, _⟩ | ⟨.inx, _⟩ | ⟨.ret, _⟩ => none

theorem Instruction.decode_eq_some_iff {opcode : Byte} {instruction : Instruction} :
    Instruction.decode opcode = some instruction ↔ instruction.encode? = some opcode := by
  constructor
  · intro decoded
    unfold decode at decoded
    split at decoded <;> cases decoded <;> rfl
  · intro encoded
    obtain ⟨mnemonic, mode⟩ := instruction
    cases mnemonic <;> cases mode <;> cases encoded <;> rfl

theorem Instruction.mode_eq_implicit_iff {opcode : Byte} {instruction : Instruction}
    (decoded : Instruction.decode opcode = some instruction) :
    instruction.mode = .implicit ↔
      instruction.mnemonic = .tax ∨ instruction.mnemonic = .inx ∨ instruction.mnemonic = .ret := by
  have encoded := decode_eq_some_iff.mp decoded
  obtain ⟨mnemonic, mode⟩ := instruction
  cases mnemonic with
  | lda | ldx | sta | stx =>
      have explicit : mode ≠ .implicit := by
        rintro rfl
        cases encoded
      simp [explicit]
  | tax | inx | ret =>
      cases mode <;> cases encoded
      simp

/-- A store never takes its target from the byte after the opcode. -/
theorem Instruction.mode_ne_immediate {opcode : Byte} {instruction : Instruction}
    (decoded : Instruction.decode opcode = some instruction)
    (store : instruction.mnemonic = .sta ∨ instruction.mnemonic = .stx) :
    instruction.mode ≠ .immediate := by
  have encoded := decode_eq_some_iff.mp decoded
  obtain ⟨mnemonic, mode⟩ := instruction
  rintro rfl
  rcases store with rfl | rfl <;> cases encoded

theorem Instruction.eq_zero_of_ret {opcode : Byte} {instruction : Instruction}
    (decoded : Instruction.decode opcode = some instruction)
    (returns : instruction.mnemonic = .ret) :
    opcode = 0x00 ∧ instruction = ⟨.ret, .implicit⟩ := by
  have encoded := decode_eq_some_iff.mp decoded
  obtain ⟨mnemonic, mode⟩ := instruction
  cases returns
  cases mode <;> cases encoded
  exact ⟨rfl, rfl⟩

end Cpu6502
