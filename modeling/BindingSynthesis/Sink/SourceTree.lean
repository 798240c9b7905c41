import BindingSynthesis.Java.Emission
import BindingSynthesis.Plan.Format
import BindingSynthesis.Sink.Basic

/-!
# BindingSynthesis.Sink.SourceTree

A sink that writes Java sources.

1. The sources of a plan belong to the directory of their package: below the
   output root, a directory for each segment.
2. Each wrapper gets a file of its own; the plan follows in a file next to
   them, unless that is not wanted.
3. The first write that fails ends the work; what was written before stays.
-/

namespace BindingSynthesis.Sink

/-- The name of the file for the plan. -/
def planFileName : String := "bindings.json"

/-- The directory of the package of a plan. -/
def packageDirectory (r : Request) (p : Plan) : Path :=
  r.output.joinAll (Text.segmentsOf '.' (r.targetPackage p))

/-- The files for a plan and their texts, in the order of writing. -/
def files (o : EmissionOptions) (r : Request) (p : Plan) : List (Path × String) :=
  let directory := packageDirectory r p
  p.wrappers.map (fun w =>
    (directory.join ⟨Java.fileName w⟩, Java.source o (r.targetPackage p) w)) ++
  if o.writePlan then [(directory.join ⟨planFileName⟩, p.toJson.pretty)] else []

/-- Writes files up to the first that fails. -/
def writeAll {m : Type → Type} [Monad m] (machine : Machine m) :
    List (Path × String) → m (Except MachineFault Unit)
  | [] => pure (.ok ())
  | (path, text) :: more => do
    match ← machine.writeText path text with
    | .ok () => writeAll machine more
    | .error fault => pure (.error fault)

/-- Makes the directory of a plan and writes its files. -/
def writePlan {m : Type → Type} [Monad m] (machine : Machine m) (o : EmissionOptions)
    (r : Request) (p : Plan) : m (Except SinkError (List Path)) := do
  match ← machine.createDirectories (packageDirectory r p) with
  | .error fault => pure (.error ⟨fault⟩)
  | .ok () => match ← writeAll machine (files o r p) with
    | .error fault => pure (.error ⟨fault⟩)
    | .ok () => pure (.ok ((files o r p).map Prod.fst))

/-- A sink that writes Java sources. -/
def sourceTree {m : Type → Type} [Monad m] (machine : Machine m) (o : EmissionOptions) : Sink m where
  persist := writePlan machine o

end BindingSynthesis.Sink
