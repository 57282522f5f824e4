/-
Why a file cannot be read: the causes that the operating system tells apart, each
with its number, the kind it belongs to and a sentence.
-/

namespace Cpu6502.CommandLine

inductive FileError where
  | notPermitted
  | notFound
  | inputOutput
  | permissionDenied
  | notDirectory
  | isDirectory
  | invalidArgument
  | nameTooLong
  | linkLoop
  | other (code : Nat) (message : String)
  deriving DecidableEq

def FileError.code : FileError → Nat
  | .notPermitted => 1
  | .notFound => 2
  | .inputOutput => 5
  | .permissionDenied => 13
  | .notDirectory => 20
  | .isDirectory => 21
  | .invalidArgument => 22
  | .nameTooLong => 36
  | .linkLoop => 40
  | .other code _ => code

def FileError.kind : FileError → String
  | .notFound => "NotFound"
  | .inputOutput => "InputOutputError"
  | .notPermitted | .permissionDenied => "PermissionDenied"
  | .notDirectory => "NotADirectory"
  | .isDirectory => "IsADirectory"
  | .invalidArgument => "InvalidInput"
  | .nameTooLong => "InvalidFilename"
  | .linkLoop => "FilesystemLoop"
  | .other .. => "Uncategorized"

def FileError.message : FileError → String
  | .notPermitted => "Operation not permitted"
  | .notFound => "No such file or directory"
  | .inputOutput => "Input/output error"
  | .permissionDenied => "Permission denied"
  | .notDirectory => "Not a directory"
  | .isDirectory => "Is a directory"
  | .invalidArgument => "Invalid argument"
  | .nameTooLong => "File name too long"
  | .linkLoop => "Too many levels of symbolic links"
  | .other _ message => message

def FileError.detail (error : FileError) : String :=
  "Os \x7b code: " ++ Nat.repr error.code ++ ", kind: " ++ error.kind ++ ", message: \""
    ++ error.message ++ "\" \x7d"

/-- The cause with this number, if it is one of those told apart by name. -/
def FileError.ofCode? (code : Nat) : Option FileError :=
  [.notPermitted, .notFound, .inputOutput, .permissionDenied, .notDirectory, .isDirectory,
    .invalidArgument, .nameTooLong, .linkLoop].find? (fun error => FileError.code error == code)

end Cpu6502.CommandLine
