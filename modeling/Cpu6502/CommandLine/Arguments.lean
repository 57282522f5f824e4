/-
Command-line arguments. They are taken from left to right, options and the file in
any order, and the first mistake ends the reading. What an argument means depends
on the one before it only if that was an option still waiting for its value, or if
the options have been closed.
-/

import Cpu6502.Decimal

namespace Cpu6502.CommandLine

inductive Switch where
  | help
  | dump
  | verbose
  deriving DecidableEq

inductive Setting where
  | switch (switch : Switch)
  | maxSteps
  deriving DecidableEq

/-- An option as it was written. -/
inductive OptionName where
  | short (letter : Char)
  | long (name : String)
  deriving DecidableEq

def OptionName.text : OptionName → String
  | .short letter => "-" ++ String.singleton letter
  | .long name => "--" ++ name

def OptionName.setting? : OptionName → Option Setting
  | .short 'h' | .long "help" => some (.switch .help)
  | .short 'm' | .long "max-steps" => some .maxSteps
  | .short 'd' | .long "dump" => some (.switch .dump)
  | .short 'v' | .long "verbose" => some (.switch .verbose)
  | _ => none

inductive UsageError where
  | unrecognized (option : OptionName)
  | missingValue (option : OptionName)
  | invalidValue (option : OptionName) (reason : NumeralError)
  | needlessValue (option : OptionName)
  | secondFile (argument : String)
  | missingFile
  deriving DecidableEq

/-- Option names and arguments stand between grave accents. -/
private def quoted (text : String) : String :=
  "\x60" ++ text ++ "\x60"

def UsageError.message : UsageError → String
  | .unrecognized option => "unrecognized option " ++ quoted option.text
  | .missingValue option => "missing argument to option " ++ quoted option.text
  | .invalidValue option reason =>
      "invalid argument to option " ++ quoted option.text ++ ": " ++ reason.message
  | .needlessValue option => "option " ++ quoted option.text ++ " does not accept an argument"
  | .secondFile argument => "unexpected free argument " ++ quoted argument
  | .missingFile => "missing required free argument"

structure Options where
  help : Bool := false
  file : Option String := none
  maxSteps : Option UInt64 := none
  dump : Bool := false
  verbose : Bool := false
  deriving DecidableEq

def Options.setMaxSteps (options : Options) (option : OptionName) (value : List Char) :
    Except UsageError Options :=
  match numeral : readNumeral UInt64.size value with
  | .ok budget =>
      have bounded : budget < UInt64.size := readNumeral_lt (by decide) numeral
      .ok { options with maxSteps := some (UInt64.ofNatLT budget bounded) }
  | .error reason => .error (.invalidValue option reason)

def Options.setFile (options : Options) (argument : String) : Except UsageError Options :=
  match options.file with
  | none => .ok { options with file := some argument }
  | some _ => .error (.secondFile argument)

def Options.turnOn (options : Options) : Switch → Options
  | .help => { options with help := true }
  | .dump => { options with dump := true }
  | .verbose => { options with verbose := true }

inductive Expectation where
  | any
  | valueOf (option : OptionName)
  | filesOnly
  deriving DecidableEq

structure Progress where
  options : Options := {}
  expects : Expectation := .any
  deriving DecidableEq

/-- Options written together behind one dash. One that takes a value has the rest of
the cluster as its value, or the next argument if nothing is left. -/
def readCluster (options : Options) : List Char → Except UsageError Progress
  | [] => .ok { options }
  | letter :: rest =>
      match (OptionName.short letter).setting? with
      | none => .error (.unrecognized (.short letter))
      | some (.switch switch) => readCluster (options.turnOn switch) rest
      | some .maxSteps =>
          match rest with
          | [] => .ok { options, expects := .valueOf (.short letter) }
          | value => do return { options := ← options.setMaxSteps (.short letter) value }

/-- An option behind two dashes, with its value after the first equals sign if there is one. -/
def readLong (options : Options) (text : List Char) : Except UsageError Progress :=
  let option := OptionName.long (String.ofList (text.takeWhile (· ≠ '=')))
  match option.setting?, text.dropWhile (· ≠ '=') with
  | none, _ => .error (.unrecognized option)
  | some (.switch switch), [] => .ok { options := options.turnOn switch }
  | some (.switch _), _ :: _ => .error (.needlessValue option)
  | some .maxSteps, [] => .ok { options, expects := .valueOf option }
  | some .maxSteps, _ :: value => do return { options := ← options.setMaxSteps option value }

/-- Takes one argument. A lone dash names a file, and two dashes close the options. -/
def Progress.take (progress : Progress) (argument : String) : Except UsageError Progress :=
  match progress.expects with
  | .valueOf option => do
      return { options := ← progress.options.setMaxSteps option argument.toList }
  | .filesOnly => do
      return { options := ← progress.options.setFile argument, expects := .filesOnly }
  | .any =>
      match argument.toList with
      | ['-', '-'] => .ok { options := progress.options, expects := .filesOnly }
      | '-' :: '-' :: name => readLong progress.options name
      | '-' :: letter :: letters => readCluster progress.options (letter :: letters)
      | _ => do return { options := ← progress.options.setFile argument }

structure Job where
  file : String
  maxSteps : Option UInt64
  dump : Bool
  verbose : Bool
  deriving DecidableEq

def defaultBudget : UInt64 := 1000000

/-- How many steps a job may take. -/
def Job.budget (job : Job) : Nat :=
  (job.maxSteps.getD defaultBudget).toNat

inductive Request where
  | help
  | run (job : Job)
  deriving DecidableEq

/-- An option that still waits for its value is missed first, then the file, which
help does without. -/
def Progress.finish (progress : Progress) : Except UsageError Request :=
  match progress.expects with
  | .valueOf option => .error (.missingValue option)
  | .any | .filesOnly =>
      let options := progress.options
      if options.help then .ok .help
      else
        match options.file with
        | none => .error .missingFile
        | some file =>
            .ok (.run
              { file
                maxSteps := options.maxSteps
                dump := options.dump
                verbose := options.verbose })

def readArguments (arguments : List String) : Except UsageError Request := do
  (← arguments.foldlM Progress.take {}).finish

end Cpu6502.CommandLine
