import BindingSynthesis.Batch.Report
import BindingSynthesis.Bridge.Basic
import BindingSynthesis.Sink.Basic
import BindingSynthesis.Synthesis
import BindingSynthesis.Text.Blank

/-!
# BindingSynthesis.Batch.Run

Running a batch of requests through a bridge, the synthesis and a sink.

1. The requests are run in order, each of them up to its first failure:
   extraction, validation of the document, synthesis, keeping the plan.
2. A request with a blank library is refused before the bridge is asked.
3. A failure does not stop the batch and undoes nothing.
4. The bridge is released once, after the last request.  The batch fails if a
   request failed; if none did, it fails if the release did.
-/

namespace BindingSynthesis

/-- Why a request failed. -/
inductive RequestError where
  | blankLibrary
  | extraction (error : BridgeError)
  | document (error : DocumentError)
  | persist (error : SinkError)
  deriving DecidableEq, Repr

/-- The wording of a request error. -/
def RequestError.message : RequestError → String
  | .blankLibrary => "Invalid request: library path is empty"
  | .extraction error => "Extraction failed: " ++ error.message
  | .document error => "Invalid descriptor: " ++ error.message
  | .persist error => "Persist failed: " ++ error.message

/-- Why a batch failed. -/
inductive BatchError where
  /-- Requests failed; the others are done nevertheless. -/
  | failed (report : Report)
  /-- No request failed, but the bridge could not be released. -/
  | release (error : BridgeError)
  deriving DecidableEq, Repr

namespace BatchError

/-- The wording of a batch error. -/
def message : BatchError → String
  | .failed report => "Binding generation failed: " ++ report.summary
  | .release error => "Failed to release runtime bridge: " ++ error.message

/-- The report of the batch, where the error has one. -/
def report? : BatchError → Option Report
  | .failed report => some report
  | .release _ => none

end BatchError

namespace Batch

variable {m : Type → Type} [Monad m]

/-- The plan for a request, from the document of its library. -/
def planOf (o : SynthesisOptions) (r : Request) (d : MetadataDocument) : Except DocumentError Plan :=
  (Library.ofDocument d).map fun l => Synthesis.synthesize o (l.retainAllowed r.includeOnly)

/-- Runs one request. -/
def runRequest (o : SynthesisOptions) (bridge : Bridge m) (sink : Sink m) (r : Request) :
    m (Except RequestError Outcome) := do
  if Text.isBlank r.library then pure (.error .blankLibrary)
  else match ← bridge.extract r.library r.includeOnly with
    | .error e => pure (.error (.extraction e))
    | .ok d => match planOf o r d with
      | .error e => pure (.error (.document e))
      | .ok p => match ← sink.persist r p with
        | .error e => pure (.error (.persist e))
        | .ok files => pure (.ok (.ofPlan p files))

/-- The outcome of a request, whether it failed or not. -/
def outcomeOf (r : Request) : Except RequestError Outcome → Outcome
  | .ok o => o
  | .error e => .ofFailure r.library e.message

/-- Runs requests one after the other. -/
def runRequests (o : SynthesisOptions) (bridge : Bridge m) (sink : Sink m) :
    List Request → m (List Outcome)
  | [] => pure []
  | r :: more => do
    let outcome := outcomeOf r (← runRequest o bridge sink r)
    let rest ← runRequests o bridge sink more
    pure (outcome :: rest)

/-- The result of a batch, from its report and the release of the bridge. -/
def conclude (report : Report) (released : Except BridgeError Unit) : Except BatchError Report :=
  if report.isSuccess then
    match released with
    | .ok () => .ok report
    | .error e => .error (.release e)
  else .error (.failed report)

/-- Runs a batch. -/
def generate (o : SynthesisOptions) (bridge : Bridge m) (sink : Sink m) (requests : List Request) :
    m (Except BatchError Report) := do
  let outcomes ← runRequests o bridge sink requests
  let released ← bridge.release
  pure (conclude ⟨outcomes⟩ released)

end Batch

end BindingSynthesis
