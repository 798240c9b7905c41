import BindingSynthesis.CommandLine.Run
import BindingSynthesis.Text.Utf8

/-!
# BindingSynthesis.Main

The command on the machine that runs it.  Files are read and written; programs
are not run, so metadata have to be extracted beforehand.
-/

namespace BindingSynthesis

/-- The fault behind an error of the system. -/
def MachineFault.ofError : IO.Error → MachineFault
  | .noFileOrDirectory .. => .notFound
  | .permissionDenied .. => .permissionDenied
  | .alreadyExists .. => .alreadyExists
  | .inappropriateType .. => .notDirectory
  | .invalidArgument .. => .nameTooLong
  | _ => .unsupported

/-- What an action gives, or the fault that it meets. -/
def attempt {α : Type} (action : IO α) : IO (Except MachineFault α) := do
  try
    return .ok (← action)
  catch e => return .error (.ofError e)

/-- The text of a file of the system. -/
def readTextFile (p : Path) : IO (Except MachineFault String) := do
  match ← attempt (IO.FS.readBinFile p.text) with
  | .error fault => return .error fault
  | .ok octets => match Text.Utf8.decode? octets.toList with
    | none => return .error .notText
    | some text => return .ok text

/-- Something that can be opened stands at the path. -/
def canOpen (p : Path) : IO Bool := do
  try
    let _ ← IO.FS.Handle.mk p.text .read
    return true
  catch _ => return false

/-- The capabilities of the system. -/
def systemMachine : Machine IO where
  readText := readTextFile
  exists? := canOpen
  createDirectories p := attempt (IO.FS.createDirAll p.text)
  writeText p text := attempt (IO.FS.writeBinFile p.text ⟨(Text.Utf8.encode text).toArray⟩)
  run _ _ := return .error .unsupported
  findProgram name := do
    let entries := Text.segmentsOf ':' ((← IO.getEnv "PATH").getD "")
    (entries.map fun entry => Path.join ⟨entry⟩ ⟨name⟩).findM? canOpen

end BindingSynthesis

open BindingSynthesis in
/-- Runs the command. -/
def main (arguments : List String) : IO UInt32 := do
  let ending ← CommandLine.run systemMachine arguments
  IO.print ending.output
  IO.eprint ending.errors
  return ending.exitCode.toUInt32
