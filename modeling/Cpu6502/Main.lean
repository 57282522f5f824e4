/-
The program: reads the named file, answers the command line and prints the report. The lines of
its log do not tell the time.
-/

import Cpu6502.CommandLine.Report

namespace Cpu6502.CommandLine

/-- The positive number of an error that may be given as its negative. -/
def systemCode (code : UInt32) : Nat :=
  if code.toNat < 0x80000000 then code.toNat else UInt32.size - code.toNat

def fileErrorOfCode (code : UInt32) (details : String) : FileError :=
  (FileError.ofCode? (systemCode code)).getD (.other (systemCode code) details)

def fileError : IO.Error → FileError
  | .noFileOrDirectory .. => .notFound
  | .permissionDenied _ code details
  | .inappropriateType _ code details
  | .invalidArgument _ code details
  | .noSuchThing _ code details
  | .hardwareFault code details
  | .otherError code details => fileErrorOfCode code details
  | error => .other 0 error.toString

def readFile (file : String) : IO (Except FileError (List Byte)) := do
  try
    return .ok (← IO.FS.readBinFile file).toList
  catch error =>
    return .error (fileError error)

end Cpu6502.CommandLine

def main (arguments : List String) : IO UInt32 := do
  let report ← Cpu6502.CommandLine.respond Cpu6502.CommandLine.takeArguments
    (Cpu6502.CommandLine.stampedLine fun _ => "") Cpu6502.CommandLine.readFile arguments
  for line in report.output do
    IO.println line
  for line in report.diagnostics do
    IO.eprintln line
  return report.exitCode
