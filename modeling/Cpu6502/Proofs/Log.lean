/-
The journal as an account of a session. Since a reset it holds one trace record for each counted
instruction, with the byte that stood there when it was fetched, and behind them at most one
record of the halt, which says in which of its two ways the machine came to rest and agrees with
what the call in which it did so has answered. Each record is stated with its level and its text.
-/

import Cpu6502.Proofs.Dialogue
import Cpu6502.Proofs.Moments
import Cpu6502.Proofs.Texts
import Mathlib.Data.List.Forall2

namespace Cpu6502

/-! ### Journals keep what they are told, in its order -/

theorem Journal.keeps_note (journal : Journal) (record other : Record) :
    (journal.note record).keeps other = journal.keeps other := by
  unfold note
  split <;> rfl

theorem Journal.records_note (journal : Journal) (record : Record) :
    (journal.note record).records.toList =
      journal.records.toList ++ [record].filter journal.keeps := by
  unfold note
  by_cases kept : journal.keeps record = true
  · simp [kept]
  · simp [kept]

theorem Journal.records_foldl_note (journal : Journal) (records : List Record) :
    (records.foldl note journal).records.toList =
      journal.records.toList ++ records.filter journal.keeps := by
  induction records generalizing journal with
  | nil => exact (List.append_nil _).symm
  | cons record rest ih =>
      have same : (journal.note record).keeps = journal.keeps := by
        funext other
        exact journal.keeps_note record other
      rw [List.foldl_cons, ih, records_note, same, List.append_assoc, ← List.filter_append]
      rfl

theorem Journal.keeps_of_trace {journal : Journal} (all : journal.threshold = some .trace)
    (record : Record) : journal.keeps record = true := by
  rw [keeps, all]
  exact decide_eq_true (Nat.zero_le _)

/-- A record stands in a log at a level with a text, and no other record has this text. -/
structure Record.Shows (record : Record) (level : Level) (text : String) : Prop where
  level_eq : record.level = level
  text_eq : record.text = text
  only : ∀ other : Record, other.text = text → other = record

theorem Record.shows (record : Record) : record.Shows record.level record.text :=
  ⟨rfl, rfl, fun _ same => text_inj same⟩

namespace Machine

section

variable {σ : Type u} [Bus σ]

/-- What a machine tells its journal in the next step. -/
def notes (machine : Machine σ) : List Record :=
  machine.processor.step.records machine.bus

theorem journal_step (machine : Machine σ) :
    machine.step.2.journal = machine.notes.foldl Journal.note machine.journal := by
  rw [step_eq_engage]
  rfl

/-- What a machine tells its journal in the first `count` steps. -/
def log (machine : Machine σ) (count : Nat) : List Record :=
  (List.range count).flatMap fun index => (machine.after index).notes

theorem log_succ (machine : Machine σ) (count : Nat) :
    machine.log (count + 1) = machine.notes ++ machine.step.2.log count := by
  rw [log, List.range_succ_eq_map, List.flatMap_cons, List.flatMap_map]
  rfl

theorem log_of_halted {machine : Machine σ} (halted : machine.state = .halted) (count : Nat) :
    machine.log count = [] := by
  have silent : machine.notes = [] := by
    rw [notes, processor, halted]
    rfl
  induction count with
  | zero => rfl
  | succ count ih => rw [log_succ, step_of_halted halted, silent, ih, List.append_nil]

theorem journal_after (machine : Machine σ) (count : Nat) :
    (machine.after count).journal =
      (machine.log count).foldl Journal.note machine.journal := by
  induction count generalizing machine with
  | zero => rfl
  | succ count ih =>
      rw [after_succ, ih, journal_step, log_succ, List.foldl_append]

end

/-! ### What the records say -/

/-- The trace record of an instruction. It shows the byte that was fetched at that moment, the
address at which it stood, and what the byte stands for. -/
def Fetched (moment : Machine Memory) (record : Record) : Prop :=
  ∃ instruction, Instruction.decode moment.opcode = some instruction ∧
    record = .fetched moment.registers.pc moment.opcode instruction ∧
      record.Shows .trace ("0x" ++ hexWord moment.registers.pc.toNat ++ ": "
        ++ hexByte moment.opcode.toNat ++ " " ++ instruction.mnemonic.name ++ " "
        ++ instruction.mode.name)

/-- Trace records in a row from an address on, each for what stands behind the one before. -/
def InRow : Address → List Record → Prop
  | _, [] => True
  | start, .fetched address opcode instruction :: rest =>
      address = start ∧ Instruction.decode opcode = some instruction ∧
        InRow (start + UInt16.ofNat instruction.size) rest
  | _, _ :: _ => False

/-- How a log ends behind its trace records, in agreement with the fault that is reported. A
machine that runs has nothing more to say; one that has halted says where and why. -/
inductive Ending (final : Machine Memory) (traces : List Record) :
    Option Fault → List Record → Prop
  | running (state : final.state = .running) : Ending final traces none []
  | returned (address : Address) (state : final.state = .halted)
      (last : traces.getLast? = some (.fetched address 0x00 ⟨.ret, .implicit⟩))
      (shown : (Record.returned address final.steps).Shows .debug
        ("RET at 0x" ++ hexWord address.toNat ++ " after " ++ Nat.repr final.steps.toNat
          ++ " steps, halting")) :
      Ending final traces none [.returned address final.steps]
  | illegal (opcode : Byte) (address : Address) (state : final.state = .halted)
      (behind : address = final.registers.pc - 1) (there : final.bus.read address = opcode)
      (undecoded : Instruction.decode opcode = none)
      (shown : (Record.illegalOpcode opcode address).Shows .warn
        ("illegal opcode 0x" ++ hexByte opcode.toNat ++ " at 0x" ++ hexWord address.toNat
          ++ ", halting")) :
      Ending final traces (some (.illegalOpcode opcode address))
        [.illegalOpcode opcode address]

theorem InRow.level_eq {start : Address} {traces : List Record} (row : InRow start traces) :
    ∀ record ∈ traces, record.level = .trace := by
  induction traces generalizing start with
  | nil => exact fun _ member => absurd member List.not_mem_nil
  | cons first rest ih =>
      cases first with
      | fetched address opcode instruction =>
          intro record member
          rcases List.mem_cons.mp member with rfl | later
          · rfl
          · exact ih row.2.2 record later
      | reset | loaded | returned | illegalOpcode => exact row.elim

theorem Ending.level_ne {final : Machine Memory} {traces others : List Record}
    {reported : Option Fault} (ends : Ending final traces reported others) :
    ∀ record ∈ others, record.level ≠ .trace := by
  cases ends with
  | running => exact fun _ member => absurd member List.not_mem_nil
  | returned _ _ _ shown | illegal _ _ _ _ _ _ shown => simp [shown.level_eq]

theorem Ending.cons {final : Machine Memory} {traces : List Record} {reported : Option Fault}
    {others : List Record} (ends : Ending final traces reported others) (first : Record) :
    Ending final (first :: traces) reported others := by
  cases ends with
  | running state => exact .running state
  | returned address state last shown =>
      refine .returned address state ?_ shown
      rw [List.getLast?_cons, last]
      rfl
  | illegal opcode address state behind there undecoded shown =>
      exact .illegal opcode address state behind there undecoded shown

variable {machine : Machine Memory}

theorem notes_of_undecoded (running : machine.state = .running)
    (undecoded : Instruction.decode machine.opcode = none) :
    machine.notes = [.illegalOpcode machine.opcode machine.registers.pc] := by
  obtain ⟨registers, state, steps, memory, journal⟩ := machine
  cases running
  change Instruction.decode (Bus.read memory registers.pc).1 = none at undecoded
  simp only [notes, processor, Processor.step, Dialogue.records, undecoded]
  rfl

theorem notes_of_decoded (running : machine.state = .running) {instruction : Instruction}
    (decoded : Instruction.decode machine.opcode = some instruction) :
    machine.notes =
      .fetched machine.registers.pc machine.opcode instruction ::
        match instruction.stateAfter with
        | .running => []
        | .halted => [.returned machine.registers.pc (machine.steps + 1)] := by
  obtain ⟨registers, state, steps, memory, journal⟩ := machine
  cases running
  change Instruction.decode (Bus.read memory registers.pc).1 = some instruction at decoded
  simp only [notes, processor, Processor.step, Dialogue.records, decoded, Dialogue.records_bind,
    Instruction.records_dialogue, Instruction.stateAfter]
  by_cases returns : instruction.mnemonic = .ret
  · simp only [if_pos returns]
    rfl
  · simp only [if_neg returns]
    rfl

/-- An account of the first `count` steps of a machine. -/
structure Accounts (machine : Machine Memory) (count : Nat) (traces others : List Record) :
    Prop where
  log : machine.log count = traces ++ others
  fetched : List.Forall₂ Fetched (machine.moments count) traces
  row : InRow machine.registers.pc traces
  ending : Ending (machine.after count) traces (Fault.of? (machine.run count).1) others

theorem accounts_of_undecoded (running : machine.state = .running)
    (undecoded : Instruction.decode machine.opcode = none) (count : Nat) :
    machine.Accounts (count + 1) []
      [.illegalOpcode machine.opcode machine.registers.pc] := by
  have stepped := step_of_undecoded running undecoded
  have halted : machine.step.2.state = .halted := by rw [stepped]
  have nothing : machine.next? = none := (next?_of_running running).trans undecoded
  refine ⟨?_, ?_, trivial, ?_⟩
  · rw [log_succ, log_of_halted halted, notes_of_undecoded running undecoded]
    rfl
  · rw [moments_succ, moments_of_halted halted]
    simp [nothing]
  · rw [run_succ_of_stopped (by simp [stepped]), after_succ, after_of_halted halted, stepped]
    have passed : machine.registers.pc = machine.registers.pc + 1 - 1 :=
      (UInt16.add_sub_cancel _ _).symm
    exact .illegal _ _ rfl passed rfl undecoded (Record.shows _)

theorem moments_succ_of_decoded (running : machine.state = .running) {instruction : Instruction}
    (decoded : Instruction.decode machine.opcode = some instruction) (count : Nat) :
    machine.moments (count + 1) = machine :: machine.step.2.moments count := by
  have next : machine.next? = some instruction := (next?_of_running running).trans decoded
  rw [moments_succ]
  simp [next]

theorem accounts_of_return (running : machine.state = .running)
    {instruction : Instruction} (decoded : Instruction.decode machine.opcode = some instruction)
    (returns : instruction.stateAfter = .halted) (count : Nat) :
    machine.Accounts (count + 1)
      [.fetched machine.registers.pc machine.opcode instruction]
      [.returned machine.registers.pc (machine.steps + 1)] := by
  have stepped := step_of_decoded running decoded
  have halted : machine.step.2.state = .halted := by
    rw [stepped]
    exact returns
  refine ⟨?_, ?_, ⟨rfl, decoded, trivial⟩, ?_⟩
  · rw [log_succ, log_of_halted halted, notes_of_decoded running decoded, returns]
    rfl
  · rw [moments_succ_of_decoded running decoded, moments_of_halted halted]
    exact .cons ⟨instruction, decoded, rfl, Record.shows _⟩ .nil
  · rw [run_succ_of_stopped (by simp [stepped, returns]), after_succ, after_of_halted halted,
      stepped, returns]
    obtain ⟨zero, rfl⟩ :=
      Instruction.eq_zero_of_ret decoded (Instruction.ret_of_halted returns)
    refine .returned machine.registers.pc rfl ?_ (Record.shows _)
    rw [zero]
    rfl

theorem Accounts.cons (running : machine.state = .running) {instruction : Instruction}
    (decoded : Instruction.decode machine.opcode = some instruction)
    (goes : instruction.stateAfter = .running) {count : Nat} {traces others : List Record}
    (later : (instruction.after machine).Accounts count traces others) :
    machine.Accounts (count + 1)
      (.fetched machine.registers.pc machine.opcode instruction :: traces) others := by
  have stepped := step_of_decoded running decoded
  rw [goes] at stepped
  refine ⟨?_, ?_, ⟨rfl, decoded, ?_⟩, ?_⟩
  · rw [log_succ, notes_of_decoded running decoded, goes, stepped, later.log]
    rfl
  · rw [moments_succ_of_decoded running decoded, stepped]
    exact .cons ⟨instruction, decoded, rfl, Record.shows _⟩ later.fetched
  · rw [← Instruction.after_pc]
    exact later.row
  · rw [run_succ_of_running stepped, after_succ, stepped]
    exact later.ending.cons _

theorem exists_accounts (running : machine.state = .running) (count : Nat) :
    ∃ traces others, machine.Accounts count traces others := by
  induction count generalizing machine with
  | zero => exact ⟨[], [], rfl, .nil, trivial, .running running⟩
  | succ count ih =>
      cases decoded : Instruction.decode machine.opcode with
      | none => exact ⟨_, _, accounts_of_undecoded running decoded count⟩
      | some instruction =>
          cases goes : instruction.stateAfter with
          | halted => exact ⟨_, _, accounts_of_return running decoded goes count⟩
          | running =>
              obtain ⟨traces, others, later⟩ := @ih (instruction.after machine) goes
              exact ⟨_, _, later.cons running decoded goes⟩

/-- The call in which a session halts reports what one run over all its steps does. -/
theorem fault_of_halting_call (running : machine.state = .running) (earlier later : List Call)
    (call : Call) (goes : (machine.after (machine.stepsIn earlier)).state = .running)
    (halted : ((machine.after (machine.stepsIn earlier)).perform call.operation).2.state =
      .halted) :
    ((machine.after (machine.stepsIn earlier)).perform call.operation).1.fault? =
      Fault.of? (machine.run (machine.stepsIn (earlier ++ call :: later))).1 := by
  obtain ⟨count, lt, halts, _, fault⟩ := exists_haltsAfter_of_call rfl running goes halted
  have within : count < machine.stepsIn (earlier ++ call :: later) := by
    rw [← List.singleton_append, ← List.append_assoc, stepsIn_append]
    exact Nat.lt_add_right _ lt
  rw [fault, halts.run_eq within]

/-- What a machine has told its journal since a reset accounts for every instruction counted
since then, and for the halt and how it was reported. -/
theorem log_faithful (machine : Machine Memory) (calls : List Call) :
    let start := machine.reset
    let final := (start.performAll (calls.map Call.operation)).2
    ∃ traces others reported,
      final.journal.records.toList =
          start.journal.records.toList ++ (traces ++ others).filter start.journal.keeps ∧
        (∀ record ∈ traces, record.level = .trace) ∧
        (∀ record ∈ others, record.level ≠ .trace) ∧
        final.steps.toNat = traces.length % UInt64.size ∧
        List.Forall₂ Fetched (start.moments (start.stepsIn calls)) traces ∧
        InRow start.registers.pc traces ∧
        Ending final traces reported others ∧
        start.faults calls = reported.toList ∧
        (∀ earlier call later, calls = earlier ++ call :: later →
          let before := (start.performAll (earlier.map Call.operation)).2
          before.state = .running → (before.perform call.operation).2.state = .halted →
            (before.perform call.operation).1.fault? = reported) ∧
        (final.state = .halted →
          ∀ call : Call, (final.perform call.operation).2.journal = final.journal) := by
  intro start final
  have running : start.state = .running := rfl
  have reached : final = start.after (start.stepsIn calls) := performAll_calls_snd start calls
  obtain ⟨traces, others, accounts⟩ := exists_accounts running (start.stepsIn calls)
  have ending : Ending final traces (Fault.of? (start.run (start.stepsIn calls)).1) others := by
    rw [reached]
    exact accounts.ending
  refine ⟨traces, others, _, ?_, accounts.row.level_eq, ending.level_ne, ?_, accounts.fetched,
    accounts.row, ending, faults_eq start calls, ?_, ?_⟩
  · rw [reached, journal_after, Journal.records_foldl_note, accounts.log]
  · have counted : start.steps = 0 := rfl
    rw [reached, steps_after, counted, UInt64.zero_add, ← length_moments,
      accounts.fetched.length_eq]
    exact UInt64.toNat_ofNat'
  · rintro earlier call later rfl before goes halted
    have arrived : before = start.after (start.stepsIn earlier) :=
      performAll_calls_snd start earlier
    rw [arrived] at goes halted ⊢
    exact fault_of_halting_call running earlier later call goes halted
  · intro halted call
    rw [perform_call_snd, after_of_halted halted]

private theorem log_store_return {machine : Machine Memory}
    (registers : machine.registers = Registers.atReset 0) (state : machine.state = .running)
    (steps : machine.steps = 0) (journal : machine.journal = ⟨some .trace, #[.reset 0]⟩)
    (code : machine.bus.read 0 = 0x86 ∧ machine.bus.read 1 = 0x03 ∧
      machine.bus.read 2 = 0xE8) :
    let final := (machine.performAll ([Call.step, .run 1, .runToHalt 9].map Call.operation)).2
    final.state = .halted ∧
      final.journal.records.toList = [.reset 0, .fetched 0 0x86 ⟨.stx, .zeroPage⟩,
        .fetched 2 0xE8 ⟨.inx, .implicit⟩, .fetched 3 0x00 ⟨.ret, .implicit⟩,
        .returned 3 3] := by
  obtain ⟨_, _, _, memory, _⟩ := machine
  subst registers state steps journal
  simp [code, performAll, perform, Call.operation, run, runToHalt, settle, step,
    Memory.read_write, Instruction.decode, Instruction.execute, Mode.resolve, Mode.operandBytes,
    Registers.advance, Registers.atReset, Registers.loadX, Registers.setZeroNegative,
    Journal.note, Journal.keeps_of_trace]

private theorem log_store_fault {machine : Machine Memory}
    (registers : machine.registers = Registers.atReset 0) (state : machine.state = .running)
    (steps : machine.steps = 0) (journal : machine.journal = ⟨some .trace, #[.reset 0]⟩)
    (code : machine.bus.read 0 = 0xE8 ∧ machine.bus.read 1 = 0x86 ∧
      machine.bus.read 2 = 0x03) :
    let final := (machine.performAll ([Call.step, .run 1, .runToHalt 9].map Call.operation)).2
    final.state = .halted ∧
      final.journal.records.toList = [.reset 0, .fetched 0 0xE8 ⟨.inx, .implicit⟩,
        .fetched 1 0x86 ⟨.stx, .zeroPage⟩, .illegalOpcode 0x01 3] := by
  obtain ⟨_, _, _, memory, _⟩ := machine
  subst registers state steps journal
  simp [code, performAll, perform, Call.operation, run, runToHalt, settle, step,
    Instruction.decode, Instruction.execute, Mode.resolve, Mode.operandBytes, Registers.advance,
    Registers.atReset, Registers.loadX, Registers.setZeroNegative, Journal.note,
    Journal.keeps_of_trace]

/-- A halted machine whose log ends with the record of a fault has reported the fault. -/
theorem Ending.reported_eq {final : Machine Memory} {traces others front : List Record}
    {reported : Option Fault} {opcode : Byte} {address : Address}
    (ends : Ending final traces reported others) (halted : final.state = .halted)
    (last : traces ++ others = front ++ [.illegalOpcode opcode address]) :
    traces = front ∧ others = [.illegalOpcode opcode address] ∧
      reported = some (.illegalOpcode opcode address) := by
  cases ends with
  | running state =>
      rw [halted] at state
      cases state
  | returned =>
      obtain ⟨_, same⟩ := List.append_inj' last rfl
      cases same
  | illegal =>
      obtain ⟨front, same⟩ := List.append_inj' last rfl
      cases same
      exact ⟨front, rfl, rfl⟩

/-- Two sessions of the same calls. In the first a store puts a return in the place of a byte that
stands for nothing, and the log shows the return, which was fetched later; in the second it puts
such a byte in the place of a return. -/
theorem log_faithful_rewritten :
    let calls := [Call.step, .run 1, .runToHalt 9]
    let returning : Machine Memory :=
      ⟨{ x := 7 }, .halted, 5,
        (((Memory.zero.write 0 0x86).write 1 0x03).write 2 0xE8).write 3 0xEA, .atLeast .trace⟩
    let faulting : Machine Memory :=
      ⟨{ x := 7 }, .halted, 5, ((Memory.zero.write 0 0xE8).write 1 0x86).write 2 0x03,
        .atLeast .trace⟩
    let final (machine : Machine Memory) :=
      (machine.reset.performAll (calls.map Call.operation)).2
    let shown (machine : Machine Memory) :=
      (final machine).journal.records.toList.map fun record => (record.level, record.text)
    shown returning =
        [(.debug, "reset: pc=0x0000"), (.trace, "0x0000: 86 STX ZeroPage"),
          (.trace, "0x0002: E8 INX Implicit"), (.trace, "0x0003: 00 RET Implicit"),
          (.debug, "RET at 0x0003 after 3 steps, halting")] ∧
      shown faulting =
        [(.debug, "reset: pc=0x0000"), (.trace, "0x0000: E8 INX Implicit"),
          (.trace, "0x0001: 86 STX ZeroPage"),
          (.warn, "illegal opcode 0x01 at 0x0003, halting")] ∧
      (∃ traces others reported,
        (final returning).journal.records.toList = .reset 0 :: (traces ++ others) ∧
          (final returning).steps.toNat = traces.length % UInt64.size ∧ InRow 0 traces ∧
          Ending (final returning) traces reported others ∧
          ((final returning).perform (Call.run 4).operation).2.journal =
            (final returning).journal) ∧
      ∃ traces,
        (final faulting).journal.records.toList =
            .reset 0 :: (traces ++ [.illegalOpcode 0x01 3]) ∧
          (final faulting).steps.toNat = traces.length % UInt64.size ∧ InRow 0 traces ∧
          Ending (final faulting) traces (some (.illegalOpcode 0x01 3))
            [.illegalOpcode 0x01 3] ∧
          faulting.reset.faults calls = [.illegalOpcode 0x01 3] := by
  intro calls returning faulting final shown
  have registers : returning.reset.registers = Registers.atReset 0 ∧
      faulting.reset.registers = Registers.atReset 0 := by
    simp [returning, faulting, reset, Bus.readWord, Memory.read_write, resetVector,
      Address.ofBytes]
  have journal : returning.reset.journal = ⟨some .trace, #[.reset 0]⟩ ∧
      faulting.reset.journal = ⟨some .trace, #[.reset 0]⟩ := by
    simp [returning, faulting, reset, Bus.readWord, Memory.read_write, resetVector,
      Address.ofBytes, Journal.note, Journal.keeps_of_trace, Journal.atLeast]
  obtain ⟨returned, records⟩ := log_store_return registers.1 rfl rfl journal.1
    (by simp [returning, reset, Bus.readWord, Memory.read_write])
  obtain ⟨faulted, records'⟩ := log_store_fault registers.2 rfl rfl journal.2
    (by simp [faulting, reset, Bus.readWord, Memory.read_write])
  obtain ⟨traces, others, reported, kept, _, _, steps, _, row, ending, _, _, quiet⟩ :=
    log_faithful returning [.step, .run 1, .runToHalt 9]
  obtain ⟨traces', others', reported', kept', _, _, steps', _, row', ending', faults, _⟩ :=
    log_faithful faulting [.step, .run 1, .runToHalt 9]
  have reached (machine : Machine Memory) :
      (machine.reset.performAll ([Call.step, .run 1, .runToHalt 9].map Call.operation)).2 =
        final machine := rfl
  rw [reached] at returned faulted records records' kept kept' steps steps' ending ending' quiet
  clear_value final
  have all (records : List Record) :
      records.filter (Journal.keeps ⟨some .trace, #[.reset 0]⟩) = records :=
    List.filter_eq_self.mpr fun record _ => Journal.keeps_of_trace rfl record
  rw [journal.1, all] at kept
  rw [journal.2, all] at kept'
  rw [registers.1] at row
  rw [registers.2] at row'
  have last : traces' ++ others' =
      [.fetched 0 0xE8 ⟨.inx, .implicit⟩, .fetched 1 0x86 ⟨.stx, .zeroPage⟩] ++
        [.illegalOpcode 0x01 3] :=
    (List.cons.inj (kept'.symm.trans records')).2
  obtain ⟨rfl, rfl, rfl⟩ := ending'.reported_eq faulted last
  refine ⟨?_, ?_, ⟨traces, others, reported, kept, steps, row, ending, quiet returned (.run 4)⟩,
    _, kept', steps', row', ending', faults⟩
  · exact congrArg (List.map fun record => (record.level, record.text)) records
  · exact congrArg (List.map fun record => (record.level, record.text)) records'

end Machine

end Cpu6502
