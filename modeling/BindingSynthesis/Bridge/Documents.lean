import BindingSynthesis.Bridge.Basic

/-!
# BindingSynthesis.Bridge.Documents

A bridge over documents at hand, which needs no machine.
-/

namespace BindingSynthesis.Bridge

/-- The bridge that answers from texts by the paths of their libraries, and
whose release ends as given. -/
def ofDocuments {m : Type → Type} [Monad m] (texts : List (String × String))
    (released : Except BridgeError Unit) : Bridge m where
  extract library _ := pure <| match texts.lookup library with
    | some text => documentOf library text
    | none => .error (.missing ⟨library⟩)
  release := pure released

end BindingSynthesis.Bridge
