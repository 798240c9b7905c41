import BindingSynthesis.Path

/-!
# BindingSynthesis.Machine.Basic

What this library asks of the machine it runs on.

A `Machine` is a record of capabilities: reading and writing files and running
programs.  Everything that touches the world takes one as an argument, so it
can do no more than what is listed here, and whatever is proved of it holds on
every machine.
-/

namespace BindingSynthesis

/-- Why the machine did not do what it was asked. -/
inductive MachineFault where
  | notFound
  | permissionDenied
  | alreadyExists
  | notDirectory
  | isDirectory
  | nameTooLong
  | notProgram
  | unsupported
  /-- The file is no UTF-8 text. -/
  | notText
  /-- The path holds a character U+0000. -/
  | nulInPath
  /-- An argument of a program holds a character U+0000. -/
  | nulInArgument
  deriving DecidableEq, Repr

/-- The wording of a fault. -/
def MachineFault.message : MachineFault → String
  | .notFound => "No such file or directory (os error 2)"
  | .notProgram => "Exec format error (os error 8)"
  | .permissionDenied => "Permission denied (os error 13)"
  | .alreadyExists => "File exists (os error 17)"
  | .notDirectory => "Not a directory (os error 20)"
  | .isDirectory => "Is a directory (os error 21)"
  | .nameTooLong => "File name too long (os error 36)"
  | .unsupported => "Function not implemented (os error 38)"
  | .notText => "stream did not contain valid UTF-8"
  | .nulInPath => "file name contained an unexpected NUL byte"
  | .nulInArgument => "nul byte found in provided data"

/-- How a program ended. -/
inductive ExitStatus where
  | code (n : Nat)
  | signal (n : Nat)
  deriving DecidableEq, Repr

namespace ExitStatus

/-- The program reports success. -/
def isSuccess (s : ExitStatus) : Bool := s == .code 0

/-- The names of the signals that end a program, by their numbers. -/
def signalNames : List (Nat × String) := [
  (1, "HUP"), (2, "INT"), (3, "QUIT"), (4, "ILL"), (5, "TRAP"), (6, "ABRT"), (7, "BUS"), (8, "FPE"),
  (9, "KILL"), (10, "USR1"), (11, "SEGV"), (12, "USR2"), (13, "PIPE"), (14, "ALRM"), (15, "TERM"),
  (16, "STKFLT"), (24, "XCPU"), (25, "XFSZ"), (26, "VTALRM"), (27, "PROF"), (29, "IO"), (30, "PWR"),
  (31, "SYS")]

/-- The wording of an exit status. -/
def message : ExitStatus → String
  | .code n => "exit status: " ++ toString n
  | .signal n => "signal: " ++ toString n ++
    match signalNames.lookup n with
    | some name => " (SIG" ++ name ++ ")"
    | none => ""

end ExitStatus

/-- What a program that was run has left. -/
structure RunResult where
  status : ExitStatus
  output : List UInt8
  errors : List UInt8
  deriving DecidableEq, Repr

/-- The capabilities of a machine. -/
structure Machine (m : Type → Type) where
  /-- The text of a file. -/
  readText : Path → m (Except MachineFault String)
  /-- Something stands at the path. -/
  exists? : Path → m Bool
  /-- Makes a directory, with those that it lies in. -/
  createDirectories : Path → m (Except MachineFault Unit)
  /-- Replaces the contents of a file, or makes it. -/
  writeText : Path → String → m (Except MachineFault Unit)
  /-- Runs a program with arguments until it ends. -/
  run : Path → List String → m (Except MachineFault RunResult)
  /-- The first program of this name on the search path. -/
  findProgram : String → m (Option Path)

end BindingSynthesis
