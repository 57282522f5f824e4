/-
What the program prints. A run is reported by its log, one line that sums up the final
state and, on request, every byte of memory that is not zero; a failure takes the place
of the summary and the dump. How arguments are understood and how a record of the log
looks is left to whoever asks for the report.
-/

import Cpu6502.CommandLine.Arguments
import Cpu6502.CommandLine.FileError
import Cpu6502.Machine.Run
import Cpu6502.Memory

namespace Cpu6502.CommandLine

inductive Failure where
  | file (error : FileError)
  | load (error : LoadError)
  | execution (fault : Fault)
  deriving DecidableEq

def Failure.detail : Failure → String
  | .file error => "Io(" ++ error.detail ++ ")"
  | .load error => "Load(" ++ error.detail ++ ")"
  | .execution fault => "Execution(" ++ fault.detail ++ ")"

/-- The exit code and what is printed on the two output streams, where a line break
follows each text. A text that quotes an argument has the line breaks of the argument. -/
structure Report where
  exitCode : UInt32
  output : List String := []
  diagnostics : List String := []
  deriving DecidableEq

/-- How a log shows its records, each with its place in the log. Lines that tell the time show
one record in another way at each place. -/
abbrev LogLine : Type := Nat → Record → String

/-- A record behind the time and its level, which takes five columns. -/
def stampedLine (stamp : Nat → String) : LogLine := fun place record =>
  stamp place ++ String.ofList (record.level.name.toList.rightpad 5 ' ') ++ " [lite6502::cpu] "
    ++ record.text

def summaryLine {σ : Type u} (state : RunState) (machine : Machine σ) : String :=
  let registers := machine.registers
  state.name ++ " after " ++ Nat.repr machine.steps.toNat ++ " steps: PC="
    ++ hexWord registers.pc.toNat ++ " A=" ++ hexByte registers.a.toNat ++ " X="
    ++ hexByte registers.x.toNat ++ " Y=" ++ hexByte registers.y.toNat ++ " SP="
    ++ hexByte registers.sp.toNat ++ " P=" ++ binaryByte registers.status.toNat

def dumpLine (address : Address) (value : Byte) : String :=
  "0x" ++ hexWord address.toNat ++ ": 0x" ++ hexByte value.toNat

def dumpLines (memory : Memory) : List String :=
  memory.nonZero.map (fun (address, value) => dumpLine address value)

def Job.execute (job : Job) (image : List Byte) : Except Failure RunState × Machine Memory :=
  let level := if job.verbose then Level.trace else Level.warn
  match (Machine.powerOn Memory.zero (Journal.atLeast level)).load image with
  | (.error error, machine) => (.error (.load error), machine)
  | (.ok (), machine) =>
      match machine.run job.budget with
      | (.error fault, machine) => (.error (.execution fault), machine)
      | (.ok state, machine) => (.ok state, machine)

def Failure.report (failure : Failure) (output : List String) : Report :=
  { exitCode := 1, output, diagnostics := ["Error: " ++ failure.detail] }

def Job.report (job : Job) (line : LogLine) (image : List Byte) : Report :=
  let (outcome, machine) := job.execute image
  let log := machine.journal.records.toList.mapIdx line
  match outcome with
  | .error failure => failure.report log
  | .ok state =>
      let dump := if job.dump then dumpLines machine.bus else []
      { exitCode := 0, output := log ++ summaryLine state machine :: dump }

def helpLines : List String :=
  [ "Usage: lite6502 [OPTIONS]",
    "",
    "Positional arguments:",
    "  file                       Program image to load at 0x8000 (at most 32KiB)",
    "",
    "Optional arguments:",
    "  -h, --help                 Show help text",
    "  -m, --max-steps MAX-STEPS  Stop after this many instructions (default: 1000000)",
    "  -d, --dump                 Print every non-zero memory byte after the run",
    "  -v, --verbose              Trace every executed instruction" ]

def UsageError.report (error : UsageError) : Report :=
  { exitCode := 2, diagnostics := ["lite6502: " ++ error.message] }

/-- The job that arguments ask for, or the report with which the program ends at once. -/
def takeArguments (arguments : List String) : Except Report Job :=
  match readArguments arguments with
  | .error error => .error error.report
  | .ok .help => .error { exitCode := 0, diagnostics := helpLines }
  | .ok (.run job) => .ok job

/-- Answers a command line. The file is read through `read`, at most once, and only
when there is something to run. -/
def respond {m : Type → Type} [Monad m] (parse : List String → Except Report Job)
    (line : LogLine) (read : String → m (Except FileError (List Byte)))
    (arguments : List String) : m Report :=
  match parse arguments with
  | .error report => pure report
  | .ok job => do
      match ← read job.file with
      | .error error => pure ((Failure.file error).report [])
      | .ok image => pure (job.report line image)

end Cpu6502.CommandLine
