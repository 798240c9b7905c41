import BindingSynthesis.Batch.Request
import BindingSynthesis.Machine.Basic

/-!
# BindingSynthesis.Sink.Basic

Sinks, which keep the plans of a batch.  The sink in memory keeps each plan with
its request, in the order of their arrival, and writes no file.
-/

namespace BindingSynthesis

/-- The machine refused to write. -/
structure SinkError where
  fault : MachineFault
  deriving DecidableEq, Repr

/-- The wording of a sink error. -/
def SinkError.message (e : SinkError) : String := "IO error: " ++ e.fault.message

/-- A place for plans. -/
structure Sink (m : Type → Type) where
  /-- Keeps the plan for a request and gives the files that were written. -/
  persist : Request → Plan → m (Except SinkError (List Path))

namespace Sink

/-- The sink with a further state that it does not touch. -/
def lifted {m : Type → Type} [Monad m] (σ : Type) (s : Sink m) : Sink (StateT σ m) where
  persist r p := StateT.lift (s.persist r p)

/-- What a sink in memory holds. -/
abbrev Stored := List (Request × Plan)

/-- The first plan for a library. -/
def Stored.plan? (stored : Stored) (library : String) : Option Plan :=
  (stored.find? fun entry => entry.2.library == library).map Prod.snd

/-- A sink in memory. -/
def memory {m : Type → Type} [Monad m] : Sink (StateT Stored m) where
  persist r p := do
    modify (· ++ [(r, p)])
    pure (.ok [])

end Sink

end BindingSynthesis
