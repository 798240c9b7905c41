import BindingSynthesis.Bridge.Basic
import BindingSynthesis.Text.Utf8

/-!
# BindingSynthesis.Bridge.Interpreter

A bridge that runs an extractor script in an interpreter.

1. The interpreter gets the script, the path of the library and the wanted
   names, as a JSON array.
2. If the interpreter ends unsuccessfully, the answer is an error with what it
   reported.
3. Otherwise the document is the last line of the output that is not blank, for
   importing a library may print anything beforehand.
-/

namespace BindingSynthesis.Bridge

/-- The last of these lines that is not blank, and nothing if all are. -/
def lastLine (lines : List (List Char)) : List Char :=
  (lines.reverse.find? fun line => !(Text.trimChars line).isEmpty).getD []

/-- The document in the output of an extractor. -/
def documentIn (library : String) (output : List UInt8) : Except BridgeError MetadataDocument :=
  documentOf library (String.ofList (lastLine (Text.lines (Text.Utf8.decodeLossy output))))

/-- What a run of an extractor answers for a library. -/
def answerOf (library : String) : Except MachineFault RunResult → Except BridgeError MetadataDocument
  | .error fault => .error (.notStarted fault)
  | .ok result =>
    if result.status.isSuccess then documentIn library result.output
    else .error (.unsuccessful library result.status
      (String.ofList (Text.trimChars (Text.Utf8.decodeLossy result.errors))))

/-- The arguments of the interpreter. -/
def arguments (script library : String) (includeOnly : List String) : List String :=
  ["-c", script, library, (Json.ofStrings includeOnly).compact]

/-- The bridge that runs a script in an interpreter. -/
def ofInterpreter {m : Type → Type} [Monad m] (machine : Machine m) (interpreter : Path)
    (script : String) : Bridge (StateT Bool m) :=
  guarded {
    extract := fun library includeOnly => do
      pure (answerOf library (← machine.run interpreter (arguments script library includeOnly)))
    release := pure (.ok ()) }

/-- The interpreter on the search path, under either of its names. -/
def findInterpreter {m : Type → Type} [Monad m] (machine : Machine m) :
    m (Except BridgeError Path) := do
  match ← machine.findProgram "python3" with
  | some path => pure (.ok path)
  | none => match ← machine.findProgram "python" with
    | some path => pure (.ok path)
    | none => pure (.error .interpreterNotFound)

end BindingSynthesis.Bridge
