/-!
# BindingSynthesis.Overload

The overloads that a callable gets.

Metadata says how many trailing parameters are optional, never which ones, so
every number of leading arguments that the callable may accept has an overload
of its own.

1. A free function with `n` parameters has one overload for each number of
   arguments from `0` to `n`.
2. A method with `n` parameters behind its receiver, `k` of them optional, has
   one for each number from `n - k` to `n`, and if `k` is positive one more with
   `n - k` arguments and a map of keywords behind them.
-/

namespace BindingSynthesis

/-- The parameters of one overload: how many are positional, and whether a map
of keywords follows. -/
structure Shape where
  arity : Nat
  keywordTail : Bool
  deriving DecidableEq, Repr

namespace Shape

/-- The numbers from `low` to `high`, both included. -/
def upTo (low high : Nat) : List Nat := List.range' low (high + 1 - low)

/-- One overload for each number of arguments from `low` to `high`. -/
def positional (low high : Nat) : List Shape := (upTo low high).map fun n => ⟨n, false⟩

/-- The overloads of a free function with that many parameters. -/
def ofFunction (total : Nat) : List Shape := positional 0 total

/-- The overloads of a method whose parameters include the receiver. -/
def ofMethod (withReceiver optional : Nat) : List Shape :=
  let total := withReceiver - 1
  let required := total - optional
  positional required total ++ if 0 < optional then [⟨required, true⟩] else []

end Shape

end BindingSynthesis
