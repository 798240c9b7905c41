import BindingSynthesis.Batch.Request

/-!
# BindingSynthesis.Batch.Report

What became of the requests of a batch: one outcome for each, in their order.
-/

namespace BindingSynthesis

open Json

/-- What became of one request. -/
structure Outcome where
  library : String
  succeeded : Bool
  /-- The number of bindings in the plan. -/
  bindings : Nat
  /-- The number of symbols without a binding. -/
  skipped : Nat
  /-- The files that were written. -/
  files : List Path
  error : Option String
  deriving DecidableEq, Repr

/-- What became of the requests of a batch. -/
structure Report where
  outcomes : List Outcome
  deriving DecidableEq, Repr

namespace Outcome

/-- The outcome of a request that failed with a message. -/
def ofFailure (library message : String) : Outcome := ⟨library, false, 0, 0, [], some message⟩

/-- The outcome of a request whose plan was written to files. -/
def ofPlan (p : Plan) (files : List Path) : Outcome :=
  ⟨p.library, true, p.bindingCount, p.skipped.length, files, none⟩

/-- A written outcome; the error is left out when there is none. -/
def toJson (o : Outcome) : Json :=
  .object (
    [("library", .string o.library),
     ("succeeded", .bool o.succeeded),
     ("bindings", .number o.bindings),
     ("skipped", .number o.skipped),
     ("files", .ofStrings (o.files.map Path.text))] ++
    match o.error with
    | none => []
    | some message => [("error", .string message)])

def fields : Fields Outcome :=
  Outcome.mk
    <$> .required "library" .string
    <*> .required "succeeded" .bool
    <*> .required "bindings" .natural
    <*> .required "skipped" .natural
    <*> .required "files" (.list Path.decode)
    <*> .optional "error" .string

end Outcome

namespace Report

/-- The outcomes of the requests that succeeded. -/
def succeeded (r : Report) : List Outcome := r.outcomes.filter Outcome.succeeded

/-- The outcomes of the requests that failed. -/
def failed (r : Report) : List Outcome := r.outcomes.filter fun o => !o.succeeded

/-- No request failed. -/
def isSuccess (r : Report) : Bool := r.outcomes.all Outcome.succeeded

/-- How many requests failed, and which. -/
def summary (r : Report) : String :=
  toString r.failed.length ++ " of " ++ toString r.outcomes.length ++ " requests failed" ++
    if r.failed.isEmpty then "" else " (" ++ Text.joined ", " (r.failed.map Outcome.library) ++ ")"

/-- A written report. -/
def toJson (r : Report) : Json := .object [("outcomes", .array (r.outcomes.map Outcome.toJson))]

def fields : Fields Report := Report.mk <$> .required "outcomes" (.list Outcome.fields.decode)

end Report

end BindingSynthesis
