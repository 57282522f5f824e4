/-
What the program reports of a run. What is printed is what the library's own run of the file comes
to; what is shown besides the summary only adds lines to the output. How arguments are understood
and how the log shows its records is left open; of the log it is asked only that its lines can be
told from the others.
-/

import Cpu6502.Proofs.Job

namespace Cpu6502

namespace CommandLine

/-! ### Invocations -/

/-- The program is started with arguments that ask for a job, and it can read the file that they
name. -/
structure Invocation where
  parse : List String → Except Report Job
  log : LogFormat
  read : String → Except FileError (List Byte)
  arguments : List String
  job : Job
  image : List Byte
  understood : parse arguments = .ok job
  readable : read job.file = .ok image

namespace Invocation

/-- The budget that the job names, or the usual one. -/
def budget (invocation : Invocation) : Nat :=
  (invocation.job.maxSteps.getD 1000000).toNat

def report (invocation : Invocation) : Report :=
  respond (m := Id) invocation.parse invocation.log.line invocation.read invocation.arguments

theorem report_eq (invocation : Invocation) :
    invocation.report = invocation.job.report invocation.log.line invocation.image := by
  rw [report, respond, invocation.understood]
  simp only [bind, invocation.readable]
  rfl

variable {invocation other : Invocation}

/-- A run of the program on one file. -/
def onFile (image : List Byte) (clock : Clock) (arguments : List String) (job : Job)
    (understood : takeArguments arguments = .ok job) : Invocation :=
  ⟨takeArguments, clock.format, fun _ => .ok image, arguments, job, image, understood, rfl⟩

end Invocation

end CommandLine

end Cpu6502
