import BindingSynthesis.Bridge.Basic

/-!
# BindingSynthesis.Bridge.Metadata

A bridge over documents that were extracted beforehand.

The document of a library is the file in a directory whose name is that of the
library followed by `.json`.  The restriction to some names is left to the
caller.
-/

namespace BindingSynthesis.Bridge

/-- Where the document of a library is found in a directory. -/
def documentPath (directory : Path) (library : String) : Path := directory.join ⟨library ++ ".json"⟩

/-- The document of a library in a directory. -/
def readDocument {m : Type → Type} [Monad m] (machine : Machine m) (directory : Path)
    (library : String) : m (Except BridgeError MetadataDocument) := do
  let path := documentPath directory library
  if ← machine.exists? path then
    match ← machine.readText path with
    | .ok text => pure (documentOf library text)
    | .error fault => pure (.error (.notStarted fault))
  else pure (.error (.missing path))

/-- The bridge over the documents in a directory. -/
def ofDirectory {m : Type → Type} [Monad m] (machine : Machine m) (directory : Path) :
    Bridge (StateT Bool m) :=
  guarded {
    extract := fun library _ => readDocument machine directory library
    release := pure (.ok ()) }

end BindingSynthesis.Bridge
