/-
What a job shows. Its journal aside, what becomes of an image is decided by the image and the
budget alone; the lines of the log stand in front of the summary and the dump, and each kind of
line can be taken away again. A run warns of the fault that it ends with, and of nothing else.
-/

import Cpu6502.Proofs.Dialogue
import Cpu6502.Proofs.Lines
import Cpu6502.Proofs.Load
import Cpu6502.Proofs.Log

namespace Cpu6502

/-! ### Journals do not matter -/

namespace Machine

variable {σ : Type u} {α : Type}

def withJournal (machine : Machine σ) (journal : Journal) : Machine σ :=
  { machine with journal := journal }

variable [Bus σ]

theorem engage_withJournal (machine : Machine σ) (journal : Journal)
    (dialogue : Dialogue (α × Processor)) :
    (machine.withJournal journal).engage dialogue =
      ((machine.engage dialogue).1,
        (machine.engage dialogue).2.withJournal
          ((dialogue.records machine.bus).foldl Journal.note journal)) := rfl

end Machine

/-! ### Warnings -/

/-- The record with which a fault is noted. -/
def Fault.record : Fault → Record
  | .illegalOpcode opcode address => .illegalOpcode opcode address

namespace Processor

variable {σ : Type u} [Bus σ]

end Processor

namespace CommandLine

/-! ### What is done about an image -/

/-- The run of an image as the library offers it: on memory that is all zero, and without an
account. -/
def runImage (image : List Byte) (budget : Nat) : Except Fault RunState × Machine Memory :=
  ((Machine.powerOn Memory.zero .silent).load image).2.run budget

/-- What is done about an image, with an account of it. -/
def carryOut (journal : Journal) (image : List Byte) (budget : Nat) :
    Except Failure RunState × Machine Memory :=
  match (Machine.powerOn Memory.zero journal).load image with
  | (.error error, refused) => (.error (.load error), refused)
  | (.ok (), loaded) =>
      ((loaded.run budget).1.mapError .execution, (loaded.run budget).2)

/-- The same as a dialogue of a machine with its memory. -/
def carriedOut (image : List Byte) (budget : Nat) :
    Dialogue (Except Failure RunState × Processor) :=
  Processor.reset.bind fun (_, started) =>
    (started.load image).bind fun
      | (.error error, refused) => .done (.error (.load error), refused)
      | (.ok (), loaded) =>
          (loaded.run budget).bind fun (outcome, final) =>
            .done (outcome.mapError .execution, final)

/-- All records of it, whether they are kept or not. -/
def told (image : List Byte) (budget : Nat) : List Record :=
  (carriedOut image budget).records Memory.zero

theorem carryOut_eq_engage (journal : Journal) (image : List Byte) (budget : Nat) :
    carryOut journal image budget =
      (⟨{}, .running, 0, Memory.zero, journal⟩ : Machine Memory).engage
        (carriedOut image budget) := by
  have started : Machine.powerOn Memory.zero journal =
      ((⟨{}, .running, 0, Memory.zero, journal⟩ : Machine Memory).engage Processor.reset).2 :=
    Machine.reset_eq_engage _
  rw [carriedOut, Machine.engage_bind, ← started, Machine.engage_bind, ← Machine.load_eq_engage,
    carryOut]
  rcases (Machine.powerOn Memory.zero journal).load image with ⟨error | ⟨⟩, loaded⟩
  · rfl
  · change _ = loaded.engage _
    rw [Machine.engage_bind, ← Machine.run_eq_engage]
    rfl

/-- The account has no part in what is done. -/
theorem carryOut_eq (journal : Journal) (image : List Byte) (budget : Nat) :
    carryOut journal image budget =
      ((carryOut .silent image budget).1,
        (carryOut .silent image budget).2.withJournal
          ((told image budget).foldl Journal.note journal)) := by
  rw [carryOut_eq_engage journal, carryOut_eq_engage .silent]
  exact Machine.engage_withJournal ⟨{}, .running, 0, Memory.zero, .silent⟩ journal _

theorem carryOut_of_large {image : List Byte} (large : 0x8000 < image.length) (budget : Nat) :
    (carryOut .silent image budget).1 = .error (.load (.imageTooLarge image.length 0x8000)) := by
  rw [carryOut, Machine.load_of_not_fits _ large]
  rfl

theorem carryOut_of_fits {image : List Byte} (fits : image.length ≤ 0x8000) (budget : Nat) :
    carryOut .silent image budget =
      ((runImage image budget).1.mapError .execution, (runImage image budget).2) := by
  rw [carryOut, runImage, Machine.load_of_fits _ fits]

def Job.journal (job : Job) : Journal :=
  .atLeast (if job.verbose then .trace else .warn)

/-- The lines in front of the summary. -/
def Job.account (job : Job) (line : LogLine) (image : List Byte) : List String :=
  ((told image job.budget).filter job.journal.keeps).mapIdx line

/-- The lines behind the log. -/
def Job.closing (job : Job) (image : List Byte) : List String :=
  match (carryOut .silent image job.budget).1 with
  | .error _ => []
  | .ok state =>
      let final := (carryOut .silent image job.budget).2
      summaryLine state final :: if job.dump then dumpLines final.bus else []

def exitCodeOf : Except Failure RunState → UInt32
  | .error _ => 1
  | .ok _ => 0

def diagnosticsOf : Except Failure RunState → List String
  | .error failure => ["Error: " ++ failure.detail]
  | .ok _ => []

theorem Job.execute_eq (job : Job) (image : List Byte) :
    job.execute image = carryOut job.journal image job.budget := by
  rw [execute, carryOut]
  change (match (Machine.powerOn Memory.zero job.journal).load image with
    | (.error error, machine) => (Except.error (Failure.load error), machine)
    | (.ok (), loaded) => _) = _
  rcases (Machine.powerOn Memory.zero job.journal).load image with ⟨error | ⟨⟩, loaded⟩
  · rfl
  · dsimp only
    rcases loaded.run job.budget with ⟨fault | state, final⟩
    · rfl
    · rfl

theorem Job.report_eq (job : Job) (line : LogLine) (image : List Byte) :
    job.report line image =
      { exitCode := exitCodeOf (carryOut .silent image job.budget).1
        output := job.account line image ++ job.closing image
        diagnostics := diagnosticsOf (carryOut .silent image job.budget).1 } := by
  have account : (((told image job.budget).foldl Journal.note job.journal).records.toList.mapIdx
      line) = job.account line image :=
    congrArg (List.mapIdx line) (Journal.records_foldl_note job.journal _)
  rw [report, execute_eq, carryOut_eq, closing]
  simp only [Machine.withJournal, account]
  cases (carryOut .silent image job.budget).1 with
  | error failure => simp only [Failure.report, exitCodeOf, diagnosticsOf, List.append_nil]
  | ok state => rfl

theorem Job.report_of_large (job : Job) (line : LogLine) {image : List Byte}
    (large : 0x8000 < image.length) :
    job.report line image =
      (Failure.load (.imageTooLarge image.length 0x8000)).report (job.account line image) := by
  rw [report_eq, closing, carryOut_of_large large]
  simp only [Failure.report, exitCodeOf, diagnosticsOf, List.append_nil]

theorem Job.report_of_fault (job : Job) (line : LogLine) {image : List Byte}
    (fits : image.length ≤ 0x8000) {fault : Fault}
    (faulted : (runImage image job.budget).1 = .error fault) :
    job.report line image = (Failure.execution fault).report (job.account line image) := by
  rw [report_eq, closing, carryOut_of_fits fits, faulted]
  simp only [Except.mapError, Failure.report, exitCodeOf, diagnosticsOf, List.append_nil]

theorem Job.report_of_ok (job : Job) (line : LogLine) {image : List Byte}
    (fits : image.length ≤ 0x8000) {state : RunState}
    (ran : (runImage image job.budget).1 = .ok state) :
    job.report line image =
      let final := (runImage image job.budget).2
      { exitCode := 0
        output := job.account line image ++
          summaryLine state final :: if job.dump then dumpLines final.bus else [] } := by
  rw [report_eq, closing, carryOut_of_fits fits, ran]
  rfl

/-! ### Lines of the log and lines behind it -/

theorem filter_account (job : Job) (log : LogFormat) (image : List Byte) (kind : LineKind) :
    (job.account log.line image).filter kind.covers = [] := by
  rw [List.filter_eq_nil_iff]
  intro line member
  obtain ⟨place, _, rfl⟩ := List.mem_mapIdx.mp member
  simp

theorem covers_of_mem_dumpLines {memory : Memory} {line : String} (member : line ∈ dumpLines memory)
    (kind : LineKind) : kind.covers line = decide (kind = .dump) := by
  obtain ⟨⟨address, value⟩, _, rfl⟩ := List.mem_map.mp member
  exact kind.covers_dumpLine address value

theorem filter_dumpLines_self (memory : Memory) :
    (dumpLines memory).filter LineKind.dump.covers = dumpLines memory := by
  rw [List.filter_eq_self]
  intro line member
  rw [covers_of_mem_dumpLines member, decide_eq_true rfl]

end CommandLine

end Cpu6502
