import BindingSynthesis.Batch.Request
import BindingSynthesis.Machine.Basic
import BindingSynthesis.Options
import BindingSynthesis.Toml.Reader

/-!
# BindingSynthesis.Batch.File

Batch files: the requests of a batch and the options for all of them, in TOML.

1. Everything has a default, so the empty text is a batch file without requests.
   Unknown keys are passed over.
2. A record is a table, or an array of its fields, which may hold more than
   them.  A date counts as a table in which no key is known.
3. In a batch file that was loaded, relative output roots and the directory of
   metadata start from the directory of the file.
-/

namespace BindingSynthesis

open Json

/-- Which bridge a batch uses. -/
inductive BridgeKind where
  /-- Run an extractor in an interpreter. -/
  | interpreter
  /-- Read documents that were extracted beforehand. -/
  | metadata
  deriving DecidableEq, Repr

/-- The name of a bridge in batch files. -/
def BridgeKind.name : BridgeKind → String
  | .interpreter => "python"
  | .metadata => "metadata"

/-- The choice of a bridge. -/
structure BridgeOptions where
  kind : BridgeKind := .interpreter
  /-- The interpreter; if there is none, it is looked up. -/
  interpreter : Option Path := none
  /-- The directory of documents. -/
  metadataDirectory : Option Path := none
  deriving DecidableEq, Repr

/-- A batch file. -/
structure BatchFile where
  synthesis : SynthesisOptions := {}
  emission : EmissionOptions := {}
  bridge : BridgeOptions := {}
  requests : List Request := []
  deriving DecidableEq, Repr

/-! ## Reading -/

mutual

/-- A value as readers of typed values take it. -/
def Toml.Value.reading : Toml.Value → Reading
  | .string s => .string ⟨some s⟩
  | .integer n => .number (if 0 ≤ n then .natural n.toNat else .other)
  | .float => .number .other
  | .bool b => .bool b
  | .date => .object false [] .closed
  | .array items => .array false (Toml.readItems items) .closed
  | .table _ members => .object false (Toml.readMembers members) .closed
  | .tables items => .array false (Toml.readTables items) .closed

/-- The elements of an array as readers take them. -/
def Toml.readItems : List Toml.Value → List Reading
  | [] => []
  | v :: more => v.reading :: Toml.readItems more

/-- The members of a table as readers take them. -/
def Toml.readMembers : List (String × Toml.Value) → List (Quoted × Reading)
  | [] => []
  | (key, v) :: more => (⟨some key⟩, v.reading) :: Toml.readMembers more

/-- The tables of an array as readers take them. -/
def Toml.readTables : List (List (String × Toml.Value)) → List Reading
  | [] => []
  | members :: more => .object false (Toml.readMembers members) .closed :: Toml.readTables more

end

namespace BridgeKind

/-- Reads a kind: its name, or a table with the name as its only key and nothing
under it. -/
def decode : Decoder BridgeKind
  | .string ⟨some name⟩ => ofName name
  | .object _ [(⟨some name⟩, .object _ [] _)] _ => ofName name
  | .object _ [(⟨some name⟩, .array _ [] _)] _ => ofName name
  | _ => .error .mismatched
where
  ofName (name : String) : Except Fault BridgeKind :=
    named [(interpreter.name, interpreter), (metadata.name, metadata)] name

end BridgeKind

def BridgeOptions.fields : Fields BridgeOptions :=
  BridgeOptions.mk
    <$> .withDefault "kind" BridgeKind.decode .interpreter
    <*> .withDefault "python" (.option Path.decode) none
    <*> .withDefault "metadata_dir" (.option Path.decode) none

namespace BatchFile

def fields : Fields BatchFile :=
  BatchFile.mk
    <$> .withDefault "synthesis" SynthesisOptions.fields.decodeLoosely {}
    <*> .withDefault "emit" EmissionOptions.fields.decodeLoosely {}
    <*> .withDefault "bridge" BridgeOptions.fields.decodeLoosely {}
    <*> .withDefault "request" (.list Request.fields.decodeLoosely) []

/-- The batch file that a text holds. -/
def parse? (text : String) : Option BatchFile := do
  let members ← Toml.parse? text
  (fields.decodeLoosely (Toml.Value.table .given members).reading).toOption

/-! ## Loading -/

/-- The batch file with its relative paths as seen from a directory. -/
def resolved (b : BatchFile) (directory : Path) : BatchFile :=
  { b with
    requests := b.requests.map fun r => { r with output := directory.join r.output }
    bridge.metadataDirectory := b.bridge.metadataDirectory.map directory.join }

end BatchFile

/-- Why a batch file was not loaded. -/
inductive BatchFileError where
  | unreadable (path : Path)
  | malformed (path : Path)
  deriving DecidableEq, Repr

namespace BatchFileError

/-- The wordings of a batch file error, from the outermost cause inwards. -/
def contexts : BatchFileError → List String
  | .unreadable path => ["Failed to read " ++ path.text]
  | .malformed path => ["In " ++ path.text, "Failed to parse batch file"]

/-- The wording of the outermost cause. -/
def message : BatchFileError → String
  | .unreadable path => "Failed to read " ++ path.text
  | .malformed path => "In " ++ path.text

end BatchFileError

/-- Loads a batch file. -/
def BatchFile.load {m : Type → Type} [Monad m] (machine : Machine m) (path : Path) :
    m (Except BatchFileError BatchFile) := do
  match ← machine.readText path with
  | .error _ => pure (.error (.unreadable path))
  | .ok text => match parse? text with
    | none => pure (.error (.malformed path))
    | some b => pure (.ok (b.resolved (path.parent?.getD ⟨"."⟩)))

end BindingSynthesis
