import BindingSynthesis.Text.Lines

/-!
# BindingSynthesis.Library.Basic

What is known of a foreign library: its top-level callables and its classes
with their methods.

Of a callable only shallow facts are known: the names of its parameters, how
many of the trailing ones are optional, a doc text and the module that declares
it.  The receiver of a method counts as its first parameter.
-/

namespace BindingSynthesis

/-- A free function or a method. -/
structure Callable where
  name : String
  params : List String
  /-- How many trailing parameters are optional. -/
  optionalCount : Nat
  doc : Option String
  /-- The dotted path of the declaring module, empty when it is not known. -/
  modulePath : String
  deriving DecidableEq, Repr

/-- A class and its methods, in the order of their declaration. -/
structure ForeignClass where
  name : String
  modulePath : String
  doc : Option String
  methods : List Callable
  deriving DecidableEq, Repr

/-- A library under its dotted path. -/
structure Library where
  name : String
  functions : List Callable
  classes : List ForeignClass
  deriving DecidableEq, Repr

namespace Callable

/-- The number of declared parameters. -/
def totalParams (c : Callable) : Nat := c.params.length

/-- The number of optional parameters, never more than there are parameters. -/
def optionalParams (c : Callable) : Nat := min c.optionalCount c.params.length

/-- The callable in a module, unless it already has one. -/
def inModule (c : Callable) (modulePath : String) : Callable :=
  if c.modulePath = "" then { c with modulePath := modulePath } else c

/-- The callable with no more optional parameters than parameters. -/
def clamped (c : Callable) : Callable := { c with optionalCount := c.optionalParams }

theorem optionalParams_le (c : Callable) : c.optionalParams ≤ c.totalParams :=
  Nat.min_le_right _ _

@[simp] theorem optionalParams_clamped (c : Callable) :
    c.clamped.optionalParams = c.optionalParams := by
  simp [clamped, optionalParams]

@[simp] theorem clamped_clamped (c : Callable) : c.clamped.clamped = c.clamped := by
  simp [clamped, optionalParams]

end Callable

namespace ForeignClass

/-- The name of the class behind the path of its module. -/
def qualifiedName (c : ForeignClass) : String :=
  if c.modulePath = "" then c.name else c.modulePath ++ "." ++ c.name

/-- The class with methods that have a module, if the class has one, and no
more optional parameters than parameters. -/
def normalized (c : ForeignClass) : ForeignClass :=
  { c with methods := c.methods.map fun m => (m.inModule c.modulePath).clamped }

end ForeignClass

namespace Library

/-- The last segment of the dotted path. -/
def shortName (l : Library) : String := (Text.segmentsOf '.' l.name).getLastD l.name

/-- The name passes an allow-list; an empty list lets every name pass. -/
def isAllowed (allow : List String) (name : String) : Bool :=
  allow.isEmpty || allow.contains name

/-- The library with the functions and classes that pass an allow-list. -/
def retainAllowed (allow : List String) (l : Library) : Library :=
  { l with
    functions := l.functions.filter fun f => isAllowed allow f.name
    classes := l.classes.filter fun c => isAllowed allow c.name }

@[simp] theorem retainAllowed_nil (l : Library) : retainAllowed [] l = l := by
  have keepAll (α : Type) (xs : List α) : xs.filter (fun _ => true) = xs := by simp
  simp [retainAllowed, isAllowed, keepAll]

end Library

end BindingSynthesis
