/-
The lines of a report. How a line begins tells whether it is a summary or a line of the dump, and
a log may begin its lines in any other way. No line has a break in it, so what is printed on a
stream can be taken apart again.
-/

import Cpu6502.CommandLine.Report
import Cpu6502.Proofs.Texts

namespace Cpu6502.CommandLine

/-! ### Kinds of lines -/

inductive LineKind where
  | summary
  | dump
  deriving DecidableEq

/-- What the lines of a kind begin with. -/
def LineKind.heads : LineKind → List String
  | .summary => ["Running after ", "Halted after "]
  | .dump => ["0x"]

def LineKind.covers (kind : LineKind) (line : String) : Bool :=
  kind.heads.any fun head => head.toList.isPrefixOf line.toList

/-- The kind of the lines that begin with a letter. No two kinds share one. -/
def LineKind.ofLetter? : Char → Option LineKind
  | 'R' | 'H' => some .summary
  | '0' => some .dump
  | _ => none

theorem LineKind.exists_letter {kind : LineKind} {head : String} (member : head ∈ kind.heads) :
    ∃ letter, head.toList.head? = some letter ∧ ofLetter? letter = some kind := by
  cases kind with
  | summary =>
      rcases List.mem_cons.mp member with rfl | later
      · exact ⟨_, rfl, rfl⟩
      · obtain rfl := List.mem_singleton.mp later
        exact ⟨_, rfl, rfl⟩
  | dump =>
      obtain rfl := List.mem_singleton.mp member
      exact ⟨_, rfl, rfl⟩

theorem LineKind.exists_letter_of_covers {kind : LineKind} {line : String}
    (covered : kind.covers line = true) :
    ∃ letter, line.toList.head? = some letter ∧ ofLetter? letter = some kind := by
  rw [covers, List.any_eq_true] at covered
  obtain ⟨head, member, begins⟩ := covered
  obtain ⟨letter, first, named⟩ := exists_letter member
  obtain ⟨rest, whole⟩ := List.isPrefixOf_iff_prefix.mp begins
  refine ⟨letter, ?_, named⟩
  rw [← whole, List.head?_append, first]
  rfl

theorem LineKind.covers_append {kind : LineKind} {head : String} (member : head ∈ kind.heads)
    (rest : String) (other : LineKind) : other.covers (head ++ rest) = decide (other = kind) := by
  obtain ⟨letter, first, named⟩ := exists_letter member
  by_cases same : other = kind
  · subst same
    rw [decide_eq_true rfl, covers, List.any_eq_true]
    refine ⟨head, member, ?_⟩
    rw [String.toList_append, List.isPrefixOf_iff_prefix]
    exact List.prefix_append _ _
  · rw [decide_eq_false same, Bool.eq_false_iff]
    intro covered
    obtain ⟨letter', first', named'⟩ := exists_letter_of_covers covered
    rw [head?_append first] at first'
    cases first'
    exact same (Option.some.inj (named'.symm.trans named))

@[simp] theorem LineKind.covers_summaryLine {σ : Type u} (kind : LineKind) (state : RunState)
    (machine : Machine σ) : kind.covers (summaryLine state machine) = decide (kind = .summary) := by
  have member : state.name ++ " after " ∈ LineKind.summary.heads := by
    cases state <;> decide
  simp only [summaryLine, String.append_assoc]
  rw [← String.append_assoc]
  exact covers_append member _ kind

@[simp] theorem LineKind.covers_dumpLine (kind : LineKind) (address : Address) (value : Byte) :
    kind.covers (dumpLine address value) = decide (kind = .dump) := by
  simp only [dumpLine, String.append_assoc]
  exact covers_append (List.mem_singleton.mpr rfl) _ kind

/-! ### No breaks within a line -/

def Unbroken (line : String) : Prop :=
  '\n' ∉ line.toList

instance : DecidablePred Unbroken :=
  fun line => inferInstanceAs (Decidable ('\n' ∉ line.toList))

@[simp] theorem unbroken_append (first second : String) :
    Unbroken (first ++ second) ↔ Unbroken first ∧ Unbroken second := by
  simp only [Unbroken, String.toList_append, List.mem_append, not_or]

@[simp] theorem unbroken_repr (value : Nat) : Unbroken (Nat.repr value) := by
  intro member
  rw [Nat.repr, String.toList_ofList] at member
  have isDigit := Nat.isDigit_of_mem_toDigits (by decide) (by decide) member
  exact absurd isDigit (by decide)

theorem newline_not_mem_digits {base : Nat} (positive : 0 < base) (small : base ≤ 16)
    (width value : Nat) : '\n' ∉ digits base width value := by
  have apart : ∀ value < 16, '\n' ≠ digit value := by decide
  induction width generalizing value with
  | zero => exact List.not_mem_nil
  | succ width ih =>
      rw [digits, List.mem_append, List.mem_singleton, not_or]
      exact ⟨ih _, apart _ (Nat.lt_of_lt_of_le (Nat.mod_lt _ positive) small)⟩

@[simp] theorem unbroken_hexByte (value : Nat) : Unbroken (hexByte value) := by
  rw [Unbroken, hexByte, String.toList_ofList]
  exact newline_not_mem_digits (by decide) (by decide) 2 value

@[simp] theorem unbroken_hexWord (value : Nat) : Unbroken (hexWord value) := by
  rw [Unbroken, hexWord, String.toList_ofList]
  exact newline_not_mem_digits (by decide) (by decide) 4 value

theorem unbroken_mnemonicName (mnemonic : Mnemonic) : Unbroken mnemonic.name := by
  cases mnemonic <;> decide

theorem unbroken_modeName (mode : Mode) : Unbroken mode.name := by
  cases mode <;> decide

theorem unbroken_recordText (record : Record) : Unbroken record.text := by
  unfold Record.text
  cases record <;>
    simp only [unbroken_append, unbroken_repr, unbroken_hexByte, unbroken_hexWord,
      unbroken_mnemonicName, unbroken_modeName, and_true] <;> decide

/-- How a log shows its records. Its lines tell their level, and no line of another kind does. -/
structure LogFormat where
  line : LogLine
  levelOf? : String → Option Level
  unbroken : ∀ place record, Unbroken (line place record)
  levelOf_line : ∀ place record, levelOf? (line place record) = some record.level
  levelOf_other : ∀ (kind : LineKind) (text : String), kind.covers text = true →
    levelOf? text = none

@[simp] theorem LineKind.covers_line (kind : LineKind) (log : LogFormat) (place : Nat)
    (record : Record) : kind.covers (log.line place record) = false := by
  rw [Bool.eq_false_iff]
  intro covered
  have none := log.levelOf_other kind _ covered
  rw [log.levelOf_line] at none
  cases none

/-- Time stamps of one width that begin like no line of another kind. -/
structure Clock where
  stamp : Nat → String
  width : Nat
  letter : Char
  sized : ∀ place, (stamp place).toList.length = width
  begins : ∀ place, (stamp place).toList.head? = some letter
  foreign : LineKind.ofLetter? letter = none
  unbroken : ∀ place, Unbroken (stamp place)

def levelOfLetter? : Char → Option Level
  | 'T' => some .trace
  | 'D' => some .debug
  | 'W' => some .warn
  | _ => none

/-- The level that a line with a time stamp shows behind it. -/
def Clock.levelOf? (clock : Clock) (line : String) : Option Level :=
  if line.toList.head? = some clock.letter then line.toList[clock.width]?.bind levelOfLetter?
  else none

theorem stampedLine_eq (stamp : Nat → String) (place : Nat) (record : Record) :
    stampedLine stamp place record =
      stamp place ++ (String.ofList (record.level.name.toList.rightpad 5 ' ') ++
        (" [lite6502::cpu] " ++ record.text)) := by
  simp only [stampedLine, String.append_assoc]

theorem Clock.levelOf_stampedLine (clock : Clock) (place : Nat) (record : Record) :
    clock.levelOf? (stampedLine clock.stamp place record) = some record.level := by
  have behind : (stampedLine clock.stamp place record).toList[clock.width]? =
      (String.ofList (record.level.name.toList.rightpad 5 ' ')).toList.head? := by
    rw [stampedLine_eq, String.toList_append, ← clock.sized place,
      List.getElem?_append_right (Nat.le_refl _), Nat.sub_self, ← List.head?_eq_getElem?,
      String.toList_append, List.head?_append]
    cases record.level <;> rfl
  rw [levelOf?, behind, stampedLine_eq, head?_append (clock.begins place), if_pos rfl]
  cases record.level <;> rfl

theorem Clock.levelOf_of_covers (clock : Clock) {kind : LineKind} {text : String}
    (covered : kind.covers text = true) : clock.levelOf? text = none := by
  obtain ⟨letter, first, named⟩ := LineKind.exists_letter_of_covers covered
  rw [levelOf?, first, if_neg]
  rintro ⟨⟩
  rw [clock.foreign] at named
  cases named

theorem Clock.unbroken_stampedLine (clock : Clock) (place : Nat) (record : Record) :
    Unbroken (stampedLine clock.stamp place record) := by
  have level : Unbroken (String.ofList (record.level.name.toList.rightpad 5 ' ')) := by
    cases record.level <;> decide
  have source : Unbroken " [lite6502::cpu] " := by
    decide
  rw [stampedLine_eq]
  simp only [unbroken_append, clock.unbroken, level, source, unbroken_recordText, and_self]

/-- Lines with a time stamp of any such clock make a log. -/
def Clock.format (clock : Clock) : LogFormat where
  line := stampedLine clock.stamp
  levelOf? := clock.levelOf?
  unbroken := clock.unbroken_stampedLine
  levelOf_line := clock.levelOf_stampedLine
  levelOf_other _ _ := clock.levelOf_of_covers

/-- A clock in some second of a day, whose fraction may go on from record to record. -/
def Clock.ofSecond (second : Nat) (fraction : Nat → Nat) : Clock where
  stamp place :=
    "2026-01-01T00:00:" ++ String.ofList (digits 10 2 second) ++ "." ++
      String.ofList (digits 10 3 (fraction place)) ++ "Z "
  width := 25
  letter := '2'
  sized place := by
    simp only [String.toList_append, String.toList_ofList, List.length_append, length_digits]
    rfl
  begins place := by
    simp only [String.append_assoc]
    exact head?_append rfl _
  foreign := rfl
  unbroken place := by
    have digits (width value : Nat) : Unbroken (String.ofList (digits 10 width value)) := by
      rw [Unbroken, String.toList_ofList]
      exact newline_not_mem_digits (by decide) (by decide) width value
    simp only [unbroken_append, digits, and_true]
    decide

/-! ### What a failure shows -/

/-- The letter with which the record of a failure begins. No two kinds share one. -/
def Failure.initial : Failure → Char
  | .file _ => 'I'
  | .load _ => 'L'
  | .execution _ => 'E'

end Cpu6502.CommandLine
