import BindingSynthesis.Json.Basic
import BindingSynthesis.Json.Record
import BindingSynthesis.Library.Document
import BindingSynthesis.Path
import BindingSynthesis.Plan.Basic

/-!
# BindingSynthesis.Batch.Request

One library to generate bindings for, and where its sources belong.
-/

namespace BindingSynthesis

open Json

/-- The root of generated sources, if none is chosen. -/
def defaultOutput : Path := ⟨"src/main/java"⟩

/-- The package that generated packages are nested in, if none is chosen. -/
def defaultParentPackage : String := "wrapweld.generated"

/-- One library to generate bindings for. -/
structure Request where
  /-- The dotted path of the library. -/
  library : String
  /-- The package that the library is distributed as, where it has another name. -/
  dependency : Option String := none
  /-- The only top-level names to generate bindings for; if empty, all of them. -/
  includeOnly : List String := []
  output : Path := defaultOutput
  /-- The package that the package of the library is nested in; empty for none. -/
  parentPackage : String := defaultParentPackage
  deriving DecidableEq, Repr

namespace Request

/-- The package of a plan: the segment of its library inside the namespace. -/
def targetPackage (r : Request) (p : Plan) : String :=
  if r.parentPackage = "" then p.packageSegment else r.parentPackage ++ "." ++ p.packageSegment

/-! ## Written form -/

/-- A written request; what was not chosen of dependency and names is left out. -/
def toJson (r : Request) : Json :=
  .object (
    [("library", .string r.library)] ++
    (match r.dependency with
      | none => []
      | some name => [("dependency", .string name)]) ++
    (if r.includeOnly.isEmpty then [] else [("include_only", .ofStrings r.includeOnly)]) ++
    [("output", .string r.output.text), ("namespace", .string r.parentPackage)])

/-- Every field of a request has a default. -/
def fields : Fields Request :=
  Request.mk
    <$> .withDefault "library" .string ""
    <*> .withDefault "dependency" (.option .string) none
    <*> .withDefault "include_only" (.list .string) []
    <*> .withDefault "output" Path.decode defaultOutput
    <*> .withDefault "namespace" .string defaultParentPackage

end Request

end BindingSynthesis
