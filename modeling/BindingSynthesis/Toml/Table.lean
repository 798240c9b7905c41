import BindingSynthesis.Json.Basic

/-!
# BindingSynthesis.Toml.Table

TOML values, and the tables that the lines of a document build.

1. A table is *given* by a header or in braces, or it comes about on the way to
   something else: *dotted* where a dotted key leads through it, *implied* where
   a header does.
2. Nothing is defined twice.  A dotted key cannot lead into a table that was
   given, and ends in a dotted table or in the one at hand; a header cannot give
   a table again, except one that was only implied.
3. What stands in brackets or braces is complete: nothing leads into it.  A way
   through an array of tables leads into its last table.
-/

namespace BindingSynthesis.Toml

/-- How a table came about. -/
inductive Origin where
  | given
  | dotted
  | implied
  /-- In braces. -/
  | inline
  deriving DecidableEq, Repr

/-- A TOML value.  Floats and dates are told apart from other values, but not
from each other's like. -/
inductive Value where
  | string (s : String)
  | integer (n : Int)
  | float
  | bool (b : Bool)
  | date
  | array (items : List Value)
  | table (origin : Origin) (members : List (String × Value))
  /-- Tables that headers with double brackets give. -/
  | tables (items : List (List (String × Value)))

/-- The members of a table, in the order in which their keys came first. -/
abbrev Members := List (String × Value)

namespace Members

/-- The members with another value under a key. -/
def replace (ms : Members) (key : String) (v : Value) : Members :=
  ms.map fun m => if m.1 = key then (key, v) else m

/-- Changes the table that keys lead to, and lets it come about if there is
none; a way to it may be `dotted` or that of a header. -/
def within (dotted : Bool) (act : Origin → Members → Option (Origin × Members)) :
    List String → Origin → Members → Option (Origin × Members)
  | [], origin, ms => act origin ms
  | key :: more, origin, ms => match ms.lookup key with
    | none => do
      let (inner, vs) ← within dotted act more (if dotted then .dotted else .implied) []
      pure (origin, ms ++ [(key, .table inner vs)])
    | some (.table inner vs) =>
      if inner = .inline ∨ (dotted ∧ inner = .given) then none
      else do
        let (inner, vs) ← within dotted act more inner vs
        pure (origin, replace ms key (.table inner vs))
    | some (.tables items) => do
      let last ← items.getLast?
      let (_, vs) ← within dotted act more .given last
      pure (origin, replace ms key (.tables (items.dropLast ++ [vs])))
    | some _ => none

/-- Adds a value under a key that has none. -/
def add (key : String) (v : Value) (ms : Members) : Option Members :=
  match ms.lookup key with
  | none => some (ms ++ [(key, v)])
  | some _ => none

/-- Adds the value of a dotted key, whose last part is given apart. -/
def addPair (origin : Origin) (ms : Members) (path : List String) (key : String) (v : Value) :
    Option Members := do
  let put (o : Origin) (vs : Members) : Option (Origin × Members) :=
    if decide (o = .dotted) = path.isEmpty then none else (add key v vs).map fun vs => (o, vs)
  let (_, ms) ← within true put path origin ms
  pure ms

end Members

/-- A line that adds a value: the parts of its key but the last, the last, and
the value. -/
structure Pair where
  path : List String
  key : String
  value : Value

/-- The members that pairs add. -/
def addPairs (origin : Origin) (ms : Members) (pairs : List Pair) : Option Members :=
  pairs.foldlM (fun ms p => ms.addPair origin p.path p.key p.value) ms

/-- A header and the pairs below it. -/
structure Section where
  /-- The header has double brackets. -/
  many : Bool
  path : List String
  key : String
  pairs : List Pair

/-- Adds the table of a section to the one that its header leads to. -/
def Section.addTo (s : Section) (origin : Origin) (ms : Members) : Option (Origin × Members) :=
  let give (start : Members) (make : Members → Value) : Option Value :=
    (addPairs .given start s.pairs).map make
  if s.many then
    match ms.lookup s.key with
    | none => (give [] fun vs => .tables [vs]).map fun v => (origin, ms ++ [(s.key, v)])
    | some (.tables items) =>
      (give [] fun vs => .tables (items ++ [vs])).map fun v => (origin, ms.replace s.key v)
    | some _ => none
  else
    match ms.lookup s.key with
    | none => (give [] (.table .given)).map fun v => (origin, ms ++ [(s.key, v)])
    | some (.table .implied vs) =>
      (give vs (.table .given)).map fun v => (origin, ms.replace s.key v)
    | some _ => none

/-- The members of the table that a document writes: its first pairs, and the
sections that follow. -/
def assemble (pairs : List Pair) (sections : List Section) : Option Members := do
  let start ← addPairs .given [] pairs
  sections.foldlM (fun ms s => do
    let (_, ms) ← Members.within false s.addTo s.path .given ms
    pure ms) start

end BindingSynthesis.Toml
