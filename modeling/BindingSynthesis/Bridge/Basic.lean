import BindingSynthesis.Library.Document
import BindingSynthesis.Machine.Basic

/-!
# BindingSynthesis.Bridge.Basic

Bridges, through which the metadata of libraries are extracted.

A bridge is a context that all requests of a batch share: it is asked for one
document after the other and released in the end.  The monad is left open, so a
bridge may keep a state, touch a machine or do neither.

1. `guarded` refuses every use after the release.
2. `recorded` notes each call before it is made.
-/

namespace BindingSynthesis

/-- Why a bridge did not do what it was asked. -/
inductive BridgeError where
  | interpreterNotFound
  | notStarted (fault : MachineFault)
  | unsuccessful (library : String) (status : ExitStatus) (errors : String)
  | malformed (library : String) (fault : Json.Fault)
  | missing (document : Path)
  | released
  deriving DecidableEq, Repr

/-- The wording of a bridge error. -/
def BridgeError.message : BridgeError → String
  | .interpreterNotFound => "Python interpreter not found: cannot find binary path"
  | .notStarted fault => "Failed to run extractor: " ++ fault.message
  | .unsuccessful library status errors =>
    "Extractor exited with " ++ status.message ++ " for " ++ library ++ ": " ++ errors
  | .malformed library fault =>
    "Malformed extractor output for " ++ library ++ ": " ++ fault.message
  | .missing document => "Metadata not found: " ++ document.text
  | .released => "Runtime bridge used after release"

/-- A context in which metadata are extracted. -/
structure Bridge (m : Type → Type) where
  /-- The document of a library; a list of names, unless empty, restricts it. -/
  extract : String → List String → m (Except BridgeError MetadataDocument)
  /-- Gives the context up. -/
  release : m (Except BridgeError Unit)

/-- A call of a bridge. -/
inductive BridgeCall where
  | extract (library : String) (includeOnly : List String)
  | release
  deriving DecidableEq, Repr

namespace Bridge

/-- The document that a text holds, as the answer for a library. -/
def documentOf (library text : String) : Except BridgeError MetadataDocument :=
  (MetadataDocument.parse text).mapError (.malformed library)

/-- The bridge with a further state that it does not touch. -/
def lifted {m : Type → Type} [Monad m] (σ : Type) (b : Bridge m) : Bridge (StateT σ m) where
  extract library includeOnly := StateT.lift (b.extract library includeOnly)
  release := StateT.lift b.release

/-- A bridge that cannot be used after its release.  The state says whether it
was released. -/
def guarded {m : Type → Type} [Monad m] (b : Bridge m) : Bridge (StateT Bool m) where
  extract library includeOnly := do
    if ← get then pure (.error .released)
    else StateT.lift (b.extract library includeOnly)
  release := do
    if ← get then pure (.error .released)
    else do
      set true
      StateT.lift b.release

/-- A bridge that notes its calls, the last one first. -/
def recorded {m : Type → Type} [Monad m] (b : Bridge m) : Bridge (StateT (List BridgeCall) m) where
  extract library includeOnly := do
    modify (BridgeCall.extract library includeOnly :: ·)
    StateT.lift (b.extract library includeOnly)
  release := do
    modify (BridgeCall.release :: ·)
    StateT.lift b.release

end Bridge

end BindingSynthesis
