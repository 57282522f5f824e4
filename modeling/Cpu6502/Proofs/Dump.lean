/-
The dump of a run. Its lines can be read back, and written into memory that is all zero they make
the memory that the run has left; so two runs print one dump just when they leave one memory.
-/

import Cpu6502.Proofs.Report
import Cpu6502.Proofs.Stores

namespace Cpu6502

/-! ### The bytes that are not zero -/

namespace Memory

theorem mem_nonZero {memory : Memory} {address : Address} {value : Byte} :
    (address, value) ∈ memory.nonZero ↔ memory.read address = value ∧ value ≠ 0 := by
  rw [nonZero, List.mem_filterMap]
  constructor
  · rintro ⟨index, _, listed⟩
    dsimp only at listed
    split at listed
    · cases listed
    · next other =>
        cases listed
        exact ⟨rfl, other⟩
  · rintro ⟨rfl, other⟩
    refine ⟨address.toNat, List.mem_range.mpr address.toNat_lt, ?_⟩
    rw [UInt16.ofNat_toNat, if_neg other]

theorem pairwise_nonZero (memory : Memory) :
    memory.nonZero.Pairwise fun first second => first.1 < second.1 := by
  have ascending : (List.range addressCount).Pairwise fun first second =>
      second < addressCount ∧ first < second := by
    refine List.pairwise_lt_range.imp_of_mem fun _ second less => ?_
    exact ⟨List.mem_range.mp second, less⟩
  refine List.Pairwise.filterMap _ ?_ ascending
  rintro first second ⟨bound, less⟩ entry listed later listed'
  dsimp only at listed listed'
  split at listed
  · cases listed
  · split at listed'
    · cases listed'
    · cases listed
      cases listed'
      rw [UInt16.lt_iff_toNat_lt, UInt16.toNat_ofNat_of_lt' (Nat.lt_trans less bound),
        UInt16.toNat_ofNat_of_lt' bound]
      exact less

/-- Where no address is written twice, each write is the last one at its address. -/
theorem read_replay_of_mem (memory : Memory) {stores : List (Address × Byte)} {address : Address}
    {value : Byte} (once : (stores.map Prod.fst).Nodup) (member : (address, value) ∈ stores) :
    (memory.replay stores).read address = value := by
  induction stores generalizing memory with
  | nil => cases member
  | cons store rest ih =>
      rw [List.map_cons, List.nodup_cons] at once
      rcases List.mem_cons.mp member with rfl | later
      · exact (read_replay_of_spared _ once.1).trans (read_write_same memory address value)
      · exact ih (memory.write store.1 store.2) once.2 later

theorem replay_nonZero (memory : Memory) : zero.replay memory.nonZero = memory := by
  have once : (memory.nonZero.map Prod.fst).Nodup :=
    List.pairwise_map.mpr (memory.pairwise_nonZero.imp UInt16.ne_of_lt)
  apply Memory.ext
  intro address
  by_cases blank : memory.read address = 0
  · have spared : address ∉ memory.nonZero.map Prod.fst := by
      intro member
      obtain ⟨⟨_, value⟩, listed, rfl⟩ := List.mem_map.mp member
      obtain ⟨read, other⟩ := mem_nonZero.mp listed
      exact other (read.symm.trans blank)
    rw [read_replay_of_spared _ spared, read_zero, blank]
  · have listed : (address, memory.read address) ∈ memory.nonZero := mem_nonZero.mpr ⟨rfl, blank⟩
    exact read_replay_of_mem zero once listed

end Memory

namespace CommandLine

/-! ### Reading a dump -/

def hexDigit? (letter : Char) : Option Nat :=
  if '0' ≤ letter ∧ letter ≤ '9' then some (letter.toNat - '0'.toNat)
  else if 'A' ≤ letter ∧ letter ≤ 'F' then some (10 + (letter.toNat - 'A'.toNat))
  else if 'a' ≤ letter ∧ letter ≤ 'f' then some (10 + (letter.toNat - 'a'.toNat))
  else none

def readHex? (letters : List Char) : Option Nat :=
  letters.foldlM (fun value letter => (hexDigit? letter).map fun next => 16 * value + next) 0

/-- An address and a byte, as in `0x80FF: 0x0A`. -/
def readDumpLine? (line : String) : Option (Address × Byte) :=
  match line.toList with
  | ['0', 'x', first, second, third, fourth, ':', ' ', '0', 'x', high, low] => do
      let address ← readHex? [first, second, third, fourth]
      let value ← readHex? [high, low]
      pure (UInt16.ofNat address, UInt8.ofNat value)
  | _ => none

/-- The memory that a dump stands for. -/
def restore? (lines : List String) : Option Memory :=
  (lines.mapM readDumpLine?).map Memory.zero.replay

theorem hexDigit?_digit : ∀ value < 16, hexDigit? (digit value) = some value := by
  decide

theorem readHex?_digits (width value : Nat) :
    readHex? (digits 16 width value) = some (value % 16 ^ width) := by
  induction width generalizing value with
  | zero =>
      rw [Nat.pow_zero, Nat.mod_one]
      rfl
  | succ width ih =>
      have last := hexDigit?_digit _ (Nat.mod_lt value (by decide : 0 < 16))
      have earlier := ih (value / 16)
      rw [readHex?] at earlier
      rw [readHex?, digits, List.foldlM_append, earlier]
      simp only [Option.bind_eq_bind, Option.bind_some, List.foldlM_cons, List.foldlM_nil, last,
        Option.map_some, Option.pure_def]
      rw [Nat.pow_succ, Nat.mul_comm (16 ^ width), Nat.mod_mul, Nat.add_comm]

theorem readDumpLine?_dumpLine (address : Address) (value : Byte) :
    readDumpLine? (dumpLine address value) = some (address, value) := by
  have word := readHex?_digits 4 address.toNat
  have byte := readHex?_digits 2 value.toNat
  rw [Nat.mod_eq_of_lt (show _ < 16 ^ 4 from address.toNat_lt)] at word
  rw [Nat.mod_eq_of_lt (show _ < 16 ^ 2 from value.toNat_lt)] at byte
  have letters : (dumpLine address value).toList =
      ['0', 'x'] ++ digits 16 4 address.toNat ++ [':', ' ', '0', 'x'] ++
        digits 16 2 value.toNat := by
    simp only [dumpLine, hexWord, hexByte, String.toList_append, String.toList_ofList]
    rfl
  rw [readDumpLine?, letters]
  simp only [digits, List.nil_append, List.cons_append] at word byte ⊢
  rw [word, byte]
  simp

theorem mapM_readDumpLine? (entries : List (Address × Byte)) :
    (entries.map fun (address, value) => dumpLine address value).mapM readDumpLine? =
      some entries := by
  induction entries with
  | nil => rfl
  | cons entry rest ih =>
      rw [List.map_cons, List.mapM_cons, ih, readDumpLine?_dumpLine]
      rfl

theorem restore?_dumpLines (memory : Memory) : restore? (dumpLines memory) = some memory := by
  rw [restore?, dumpLines, mapM_readDumpLine?, Option.map_some, Memory.replay_nonZero]

theorem dumpLines_inj {memory other : Memory} :
    dumpLines memory = dumpLines other ↔ memory = other := by
  constructor
  · intro same
    have restored := congrArg restore? same
    rw [restore?_dumpLines, restore?_dumpLines] at restored
    exact Option.some.inj restored
  · exact congrArg dumpLines

/-! ### The dump of an invocation -/

theorem Failure.exitCode_report_ne_zero (failure : Failure) (output : List String) :
    (failure.report output).exitCode ≠ 0 := by
  change (1 : UInt32) ≠ 0
  decide

theorem Job.ran_of_exitCode {job : Job} {line : LogLine} {image : List Byte}
    (ended : (job.report line image).exitCode = 0) :
    image.length ≤ 0x8000 ∧ ∃ state, (runImage image job.budget).1 = .ok state := by
  rcases Nat.lt_or_ge 0x8000 image.length with large | fits
  · rw [job.report_of_large line large] at ended
    exact absurd ended (Failure.exitCode_report_ne_zero _ _)
  · cases ran : (runImage image job.budget).1 with
    | error fault =>
        rw [job.report_of_fault line fits ran] at ended
        exact absurd ended (Failure.exitCode_report_ne_zero _ _)
    | ok state => exact ⟨fits, state, rfl⟩

namespace Invocation

/-- The machine that the library's own run of the file leaves. -/
def final (invocation : Invocation) : Machine Memory :=
  (runImage invocation.image invocation.budget).2

def dump (invocation : Invocation) : List String :=
  invocation.report.output.filter LineKind.dump.covers

/-- A run that succeeds is accounted for first, then summed up and dumped. -/
theorem output_eq {invocation : Invocation} (shown : invocation.job.dump = true)
    (ended : invocation.report.exitCode = 0) :
    ∃ state, (runImage invocation.image invocation.budget).1 = .ok state ∧
      invocation.report.output =
        invocation.job.account invocation.log.line invocation.image ++
          summaryLine state invocation.final :: dumpLines invocation.final.bus := by
  rw [report_eq] at ended
  obtain ⟨fits, state, ran⟩ := Job.ran_of_exitCode ended
  refine ⟨state, ran, ?_⟩
  rw [report_eq, invocation.job.report_of_ok _ fits ran, shown]
  rfl

theorem dump_eq {invocation : Invocation} (shown : invocation.job.dump = true)
    (ended : invocation.report.exitCode = 0) :
    invocation.dump = dumpLines invocation.final.bus := by
  obtain ⟨state, _, output⟩ := output_eq shown ended
  rw [dump, output, List.filter_append, filter_account, List.nil_append,
    List.filter_cons_of_neg (by simp), filter_dumpLines_self]

/-- The dump of a run that succeeds stands behind its summary. It has one line for each byte that
is not zero, the addresses ascending, and no other line; read back into memory that is all zero,
it makes the memory that the library's own run of the file leaves. So it tells any two memories
apart. -/
theorem dump_determines_memory (invocation : Invocation)
    (shown : invocation.job.dump = true) (ended : invocation.report.exitCode = 0) :
    let memory := invocation.final.bus
    (∃ before state, (runImage invocation.image invocation.budget).1 = .ok state ∧
      invocation.report.output = before ++ summaryLine state invocation.final :: invocation.dump ∧
        before.filter LineKind.summary.covers = [] ∧ before.filter LineKind.dump.covers = []) ∧
    (∃ entries : List (Address × Byte),
      invocation.dump = entries.map (fun (address, value) => dumpLine address value) ∧
        entries.Pairwise (fun first second => first.1 < second.1) ∧
          ∀ address value,
            (address, value) ∈ entries ↔ memory.read address = value ∧ value ≠ 0) ∧
    restore? invocation.dump = some memory ∧
    ∀ other : Invocation, other.job.dump = true → other.report.exitCode = 0 →
      (other.dump = invocation.dump ↔ other.final.bus = memory) := by
  intro memory
  have dumped : invocation.dump = dumpLines memory := dump_eq shown ended
  refine ⟨?_, ?_, ?_, ?_⟩
  · obtain ⟨state, ran, output⟩ := output_eq shown ended
    have silent := filter_account invocation.job invocation.log invocation.image
    rw [dumped]
    exact ⟨_, state, ran, output, silent _, silent _⟩
  · exact ⟨memory.nonZero, dumped, memory.pairwise_nonZero, fun _ _ => Memory.mem_nonZero⟩
  · rw [dumped, restore?_dumpLines]
  · intro other shown' ended'
    rw [dumped, dump_eq shown' ended', dumpLines_inj]

theorem exitCode_of_ran (invocation : Invocation) (fits : invocation.image.length ≤ 0x8000)
    {state : RunState} (ran : (runImage invocation.image invocation.budget).1 = .ok state) :
    invocation.report.exitCode = 0 := by
  rw [report_eq, invocation.job.report_of_ok _ fits ran]

private theorem run_load_store {machine : Machine Memory}
    (registers : machine.registers = Registers.atReset 0x8000) (running : machine.state = .running)
    (code : machine.bus.read 0x8000 = 0xA9 ∧ machine.bus.read 0x8001 = 0x2A ∧
      machine.bus.read 0x8002 = 0x85 ∧ machine.bus.read 0x8003 = 0x10) :
    (machine.run 1).1 = .ok .running ∧ (machine.run 1).2.bus = machine.bus ∧
      (machine.run 2).1 = .ok .running ∧
      (machine.run 2).2.bus = machine.bus.write 0x10 0x2A := by
  obtain ⟨_, _, _, memory, _⟩ := machine
  subst registers running
  simp [code, Machine.run, Machine.step, Instruction.decode, Instruction.execute, Mode.resolve,
    Mode.operandBytes, Registers.atReset, Registers.advance, Registers.loadA,
    Registers.setZeroNegative]

private theorem runImage_load_store {image : List Byte} (code : image = [0xA9, 0x2A, 0x85, 0x10]) :
    let loaded := Memory.zero.withImage image
    (runImage image 1).1 = .ok .running ∧ (runImage image 1).2.bus = loaded ∧
      (runImage image 2).1 = .ok .running ∧ (runImage image 2).2.bus = loaded.write 0x10 0x2A := by
  intro loaded
  subst code
  have fits : [(0xA9 : Byte), 0x2A, 0x85, 0x10].length ≤ programCapacity := by decide
  have placed := Memory.placed_withImage Memory.zero fits
  simp only [runImage, Machine.load_of_fits _ fits]
  exact run_load_store rfl rfl
    ⟨placed.inside 0 (by decide) (by decide) (by decide),
      placed.inside 1 (by decide) (by decide) (by decide),
      placed.inside 2 (by decide) (by decide) (by decide),
      placed.inside 3 (by decide) (by decide) (by decide)⟩

/-- The byte that the second step stores has a line of its own; a run of one step has another
dump, and a verbose one has the same. -/
theorem dump_determines_memory_load_store :
    let image : List Byte := [0xA9, 0x2A, 0x85, 0x10]
    let storing := onFile image (.ofSecond 1 id) ["-dm2", "p"] ⟨"p", some 2, true, false⟩ rfl
    let verbose := onFile image (.ofSecond 2 id) ["-dvm2", "p"] ⟨"p", some 2, true, true⟩ rfl
    let shorter := onFile image (.ofSecond 3 id) ["-dm1", "p"] ⟨"p", some 1, true, false⟩ rfl
    "0x0010: 0x2A" ∈ storing.dump ∧ "0x8002: 0x85" ∈ storing.dump ∧
      restore? storing.dump = some ((Memory.zero.withImage image).write 0x10 0x2A) ∧
      verbose.dump = storing.dump ∧ shorter.dump ≠ storing.dump := by
  intro image storing verbose shorter
  obtain ⟨ran, kept, ran', stored⟩ := runImage_load_store (rfl : image = _)
  have fits : image.length ≤ 0x8000 := by decide
  have placed := Memory.placed_withImage Memory.zero fits
  obtain ⟨_, ⟨entries, dump, _, listed⟩, restored, others⟩ :=
    storing.dump_determines_memory rfl (storing.exitCode_of_ran fits ran')
  have images : storing.image = image ∧ verbose.image = image ∧ shorter.image = image :=
    ⟨rfl, rfl, rfl⟩
  have budgets : storing.budget = 2 ∧ verbose.budget = 2 ∧ shorter.budget = 1 := ⟨rfl, rfl, rfl⟩
  have left : storing.final.bus = (Memory.zero.withImage image).write 0x10 0x2A := by
    rw [final, images.1, budgets.1, stored]
  have again : verbose.final.bus = storing.final.bus := by
    rw [left, final, images.2.1, budgets.2.1, stored]
  have before : shorter.final.bus = Memory.zero.withImage image := by
    rw [final, images.2.2, budgets.2.2, kept]
  have apart : (Memory.zero.withImage image).read 0x10 ≠ 0x2A := by
    have beyond : image[((0x10 : Address) - programStart).toNat]? = none := rfl
    rw [Memory.read_withImage_of_ne Memory.zero fits (by decide) (by decide), beyond,
      Option.getD_none, Memory.read_zero]
    decide
  rw [left] at listed restored
  refine ⟨?_, ?_, restored, ?_, ?_⟩
  · have member := (listed 0x10 0x2A).mpr ⟨Memory.read_write_same _ _ _, by decide⟩
    rw [dump]
    exact List.mem_map_of_mem member
  · have code := placed.inside 2 (by decide) (by decide) (by decide)
    have member := (listed 0x8002 0x85).mpr
      ⟨(Memory.read_write_of_ne _ _ (by decide)).trans code, by decide⟩
    rw [dump]
    exact List.mem_map_of_mem member
  · exact (others verbose rfl (verbose.exitCode_of_ran fits ran')).mpr again
  · intro same
    have equal := (others shorter rfl (shorter.exitCode_of_ran fits ran)).mp same
    rw [left, before] at equal
    apply apart
    rw [equal, Memory.read_write_same]

end Invocation

end CommandLine

end Cpu6502
