import BindingSynthesis.Batch.File
import BindingSynthesis.Batch.Run
import BindingSynthesis.Bridge.DefaultScript
import BindingSynthesis.Bridge.Interpreter
import BindingSynthesis.Bridge.Metadata
import BindingSynthesis.CommandLine.Arguments
import BindingSynthesis.Sink.SourceTree

/-!
# BindingSynthesis.CommandLine.Run

The command: its two tasks and what it reports.

1. `generate` runs the requests of a batch file and writes Java sources.  A
   bridge chosen on the command line goes before the one of the batch file.
2. `plan` prints the plan of one metadata document.
3. The exit code is 0 after a success, 1 after a failure and 2 if the arguments
   are no usage of the command.
-/

namespace BindingSynthesis.CommandLine

/-- What the command leaves: its exit code and what it prints. -/
structure Ending where
  exitCode : Nat
  output : String := ""
  errors : String := ""
  deriving DecidableEq, Repr

/-- Why a task failed. -/
inductive TaskError where
  | batchFile (error : BatchFileError)
  | noRequests (config : Path)
  | noMetadataDirectory
  | bridge (error : BridgeError)
  | batch (error : BatchError)
  | unreadable (path : Path)
  | malformed (path : Path)
  | document (error : DocumentError)
  deriving DecidableEq, Repr

/-- The wording of a failure. -/
def TaskError.message : TaskError → String
  | .batchFile error => error.message
  | .noRequests config => config.text ++ " contains no [[request]] entries"
  | .noMetadataDirectory => "[bridge] kind = \"metadata\" requires metadata_dir"
  | .bridge error => error.message
  | .batch error => error.message
  | .unreadable path => "Failed to read " ++ path.text
  | .malformed path => "Failed to parse " ++ path.text
  | .document error => error.message

variable {m : Type → Type} [Monad m]

/-- The bridge that an interpreter makes. -/
def interpreterBridge (machine : Machine m) (interpreter : Path) : Bridge (StateT Bool m) :=
  Bridge.ofInterpreter machine interpreter Bridge.defaultScript

/-- The bridge that a batch file chooses. -/
def chosenBridge (machine : Machine m) (o : BridgeOptions) :
    m (Except TaskError (Bridge (StateT Bool m))) := do
  match o.kind, o.metadataDirectory, o.interpreter with
  | .metadata, some directory, _ => pure (.ok (Bridge.ofDirectory machine directory))
  | .metadata, none, _ => pure (.error .noMetadataDirectory)
  | .interpreter, _, some interpreter => pure (.ok (interpreterBridge machine interpreter))
  | .interpreter, _, none => match ← Bridge.findInterpreter machine with
    | .ok interpreter => pure (.ok (interpreterBridge machine interpreter))
    | .error e => pure (.error (.bridge e))

/-- The bridge of a batch: the one of the command line, or else the one of the
batch file. -/
def bridgeFor (machine : Machine m) (o : BridgeOptions)
    (metadataDirectory interpreter : Option Path) : m (Except TaskError (Bridge (StateT Bool m))) :=
  match metadataDirectory, interpreter with
  | some directory, _ => pure (.ok (Bridge.ofDirectory machine directory))
  | none, some interpreter => pure (.ok (interpreterBridge machine interpreter))
  | none, none => chosenBridge machine o

/-- Runs the requests of a batch file. -/
def generate (machine : Machine m) (config : Path) (metadataDirectory interpreter : Option Path) :
    m (Except TaskError String) := do
  match ← BatchFile.load machine config with
  | .error e => pure (.error (.batchFile e))
  | .ok batch =>
    if batch.requests.isEmpty then pure (.error (.noRequests config))
    else match ← bridgeFor machine batch.bridge metadataDirectory interpreter with
      | .error e => pure (.error e)
      | .ok bridge =>
        let sink := (Sink.sourceTree machine batch.emission).lifted Bool
        let result ← (Batch.generate batch.synthesis bridge sink batch.requests).run' false
        match result with
        | .error e => pure (.error (.batch e))
        | .ok _ => pure (.ok "")

/-- The plan of a document, whose library may be named anew. -/
def planOfText (path : Path) (library : Option String) (text : String) : Except TaskError Plan :=
  match MetadataDocument.parse text with
  | .error _ => .error (.malformed path)
  | .ok d => ((Library.ofDocument { d with library := library.or d.library }).mapError .document).map
    (Synthesis.synthesize {})

/-- The printed plan of one metadata document. -/
def plan (machine : Machine m) (metadata : Path) (library : Option String) :
    m (Except TaskError String) := do
  match ← machine.readText metadata with
  | .error _ => pure (.error (.unreadable metadata))
  | .ok text => pure ((planOfText metadata library text).map fun p => p.toJson.pretty ++ "\n")

/-- How the command ends after a task. -/
def Ending.ofTask : Except TaskError String → Ending
  | .ok output => { exitCode := 0, output }
  | .error e => { exitCode := 1, errors := "Error: " ++ e.message ++ "\n" }

/-- How the command is used. -/
def usage : String :=
  "Usage: wrapweld generate [-c|--config FILE] [--metadata-dir DIRECTORY | --python INTERPRETER]\n" ++
  "       wrapweld plan METADATA [--library NAME]\n" ++
  "       wrapweld --version\n"

/-- Runs the command with arguments. -/
def run (machine : Machine m) (arguments : List String) : m Ending := do
  match command? arguments with
  | none => pure { exitCode := 2, errors := usage }
  | some .help => pure { exitCode := 0, output := usage }
  | some .version => pure { exitCode := 0, output := "wrapweld 0.1.0\n" }
  | some (.generate config metadataDirectory interpreter) =>
    return .ofTask (← generate machine config metadataDirectory interpreter)
  | some (.plan metadata library) => return .ofTask (← plan machine metadata library)

end BindingSynthesis.CommandLine
