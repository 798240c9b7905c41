import BindingSynthesis.Text.Lines

/-!
# BindingSynthesis.Plan.Basic

The plan of the bindings for one library.

A plan holds wrappers: one at the level of the library module, whose bindings
are its free functions, and one for each class, whose bindings are methods of a
wrapped object.  Each binding is one overload and says which foreign call it
stands for.  Symbols that contribute no binding are recorded with the reason.
-/

namespace BindingSynthesis

/-! ## Calls -/

/-- Where a binding forwards its call. -/
inductive Target where
  /-- A callable of the library module. -/
  | library (modulePath callable : String)
  /-- A callable of a submodule that is bound to an alias beforehand. -/
  | aliased (aliasName modulePath callable : String)
  /-- A method of the wrapped object. -/
  | receiver (method : String)
  deriving DecidableEq, Repr

namespace Target

/-- The dotted path that is called. -/
def path : Target → String
  | .library modulePath callable => modulePath ++ "." ++ callable
  | .aliased aliasName _ callable => aliasName ++ "." ++ callable
  | .receiver method => "self." ++ method

/-- The alias that has to be bound before the call. -/
def aliasName? : Target → Option String
  | .aliased aliasName _ _ => some aliasName
  | _ => none

/-- The foreign name that is called. -/
def callable : Target → String
  | .library _ callable | .aliased _ _ callable => callable
  | .receiver method => method

end Target

/-! ## Bindings -/

/-- The level of a wrapper. -/
inductive WrapperKind where
  /-- Static bindings for the functions of a library. -/
  | libraryLevel
  /-- Bindings on a wrapped object. -/
  | classLevel
  deriving DecidableEq, Repr

/-- What distinguishes the bindings of a wrapper. -/
structure Signature where
  name : String
  arity : Nat
  keywordTail : Bool
  deriving DecidableEq, Repr

/-- One overload. -/
structure Binding where
  ownerKind : WrapperKind
  ownerName : String
  /-- The host name of the overload. -/
  name : String
  arity : Nat
  keywordTail : Bool
  target : Target
  requiresAlias : Bool
  /-- Comment text, empty when there is none. -/
  doc : String
  deriving DecidableEq, Repr

namespace Binding

/-- The signature of the overload. -/
def signature (b : Binding) : Signature := ⟨b.name, b.arity, b.keywordTail⟩

/-- The names of the positional parameters. -/
def positionalArgs (b : Binding) : List String :=
  (List.range b.arity).map fun i => "arg" ++ toString i

/-- The foreign call, with a name for the map of keywords. -/
def foreignCall (b : Binding) (kwargsName : String) : String :=
  let keywords := if b.keywordTail then ["**" ++ kwargsName] else []
  b.target.path ++ "(" ++ Text.joined ", " (b.positionalArgs ++ keywords) ++ ")"

@[simp] theorem length_positionalArgs (b : Binding) : b.positionalArgs.length = b.arity := by
  simp [positionalArgs]

end Binding

/-! ## Imports -/

/-- A statement that the foreign side runs before any binding of a wrapper. -/
inductive Import where
  /-- Imports a module under its own path. -/
  | plain (modulePath : String)
  /-- Binds a module to an alias. -/
  | aliased (aliasName modulePath : String)
  deriving DecidableEq, Repr

namespace Import

/-- The statement in foreign source. -/
def source : Import → String
  | .plain modulePath => "import " ++ modulePath
  | .aliased aliasName modulePath =>
    "import importlib; " ++ aliasName ++ " = importlib.import_module('" ++ modulePath ++ "')"

/-- Adds a statement at the end, unless it is there already. -/
def require (statement : Import) (imports : List Import) : List Import :=
  if statement ∈ imports then imports else imports ++ [statement]

theorem mem_require {i statement : Import} {imports : List Import} :
    i ∈ require statement imports ↔ i ∈ imports ∨ i = statement := by
  rw [require]
  split
  · next h => exact ⟨.inl, fun h' => h'.elim id fun e => e ▸ h⟩
  · simp

end Import

/-! ## Wrappers -/

/-- A generated unit and its bindings. -/
structure Wrapper where
  kind : WrapperKind
  /-- The host name of the unit. -/
  name : String
  /-- The library path, or the name of the class. -/
  foreignName : String
  modulePath : String
  /-- Comment text, empty when there is none. -/
  doc : String
  imports : List Import
  bindings : List Binding
  deriving DecidableEq, Repr

namespace Wrapper

/-- A wrapper without bindings, whose only import is the library. -/
def forLibrary (kind : WrapperKind) (name foreignName modulePath library : String) : Wrapper :=
  ⟨kind, name, foreignName, modulePath, "", [.plain library], []⟩

/-- The wrapper with one more import, unless it has it already. -/
def requireImport (w : Wrapper) (statement : Import) : Wrapper :=
  { w with imports := statement.require w.imports }

/-- All imports as one foreign script, a line each. -/
def importScript (w : Wrapper) : String := Text.joined "\n" (w.imports.map Import.source)

/-- The bindings that forward to a foreign name. -/
def bindingsFor (w : Wrapper) (callable : String) : List Binding :=
  w.bindings.filter fun b => b.target.callable == callable

end Wrapper

/-! ## Plans -/

/-- Why a symbol contributes no binding. -/
inductive SkipReason where
  /-- The name is no usable host name. -/
  | invalidName
  /-- The method constructs the object; wrappers have their own constructor. -/
  | constructor
  /-- Another wrapper has the name already. -/
  | ownerCollision
  /-- The wrapper has a binding of this name and shape already. -/
  | duplicateSignature (arity : Nat) (keywordTail : Bool)
  deriving DecidableEq, Repr

/-- A symbol that contributes no binding, and the wrapper that it misses. -/
structure Skip where
  owner : String
  symbol : String
  reason : SkipReason
  deriving DecidableEq, Repr

/-- The plan for one library. -/
structure Plan where
  library : String
  wrappers : List Wrapper
  skipped : List Skip
  deriving DecidableEq, Repr

namespace Plan

/-- A plan with nothing in it. -/
def empty (library : String) : Plan := ⟨library, [], []⟩

/-- The package segment of the library: its path with underscores for dots. -/
def packageSegment (p : Plan) : String :=
  String.ofList (p.library.toList.map fun c => if c = '.' then '_' else c)

/-- The wrapper with a host name. -/
def wrapper? (p : Plan) (name : String) : Option Wrapper := p.wrappers.find? fun w => w.name == name

/-- The wrapper of the library's functions. -/
def libraryWrapper? (p : Plan) : Option Wrapper :=
  p.wrappers.find? fun w => w.kind == .libraryLevel

/-- All bindings, wrapper by wrapper. -/
def bindings (p : Plan) : List Binding := p.wrappers.flatMap Wrapper.bindings

/-- The number of bindings. -/
def bindingCount (p : Plan) : Nat := p.wrappers.foldr (fun w n => w.bindings.length + n) 0

end Plan

end BindingSynthesis
