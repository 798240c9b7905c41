import BindingSynthesis.Java.Emission
import BindingSynthesis.Proofs.ForeignCalls

/-!
# BindingSynthesis.Proofs.JavaRuns

What a Java method asks of the foreign side.

```
i.exec(imports());            imports
i.set("self", pyObj);         self := x
return i.invoke("f", arg0);   f(v), and its result is given
```

1. A method runs among its parameters, its local variables and the fields of its
   object.  Every other name, a variable that is declared again, or a statement that is
   none of these has no meaning here.
2. The result of a run is the list of the actions on the foreign side; the method gives
   what the last one gives.
-/

namespace BindingSynthesis.Java

open Foreign

variable {α : Type}

/-! ## running a method -/

/-- A value that a method works with. -/
inductive Value (α : Type) where
  | object (a : α)
  /-- A map of keywords. -/
  | keywords (map : α)
  | text (s : String)
  | interpreter
  /-- The import statements that `imports()` gives. -/
  | imports

/-- What a method can name. -/
structure Scope (α : Type) where
  locals : Variables (Value α)
  fields : Variables (Value α)
  /-- What `py()` gives for a map of keywords. -/
  py : α → α

/-- The expression for the interpreter, without its parentheses. -/
def accessorName : String := "wrapweld.runtime.Runtime.interpreter"

/-- The receiver and the name of a method that is called. -/
def splitCall? (f : String) : Option (String × String) :=
  match f.toList.reverse.dropWhile (· != '.') with
  | '.' :: receiver =>
    some (String.ofList receiver.reverse,
      String.ofList (f.toList.reverse.takeWhile (· != '.')).reverse)
  | _ => none

namespace Scope

def lookup (s : Scope α) (name : String) : Option (Value α) := (s.locals name).or (s.fields name)

/-- The value of an expression that does nothing on the foreign side. -/
def value? (s : Scope α) : Expr → Option (Value α)
  | .text t => some (.text t)
  | .verbatim name => s.lookup name
  | .call f [] =>
    if f = "imports" then some .imports
    else if f = accessorName then some .interpreter
    else do
      let (receiver, method) ← splitCall? f
      match method, s.lookup receiver with
      | "py", some (.keywords map) => some (.object (s.py map))
      | _, _ => none
  | .call _ _ => none

def object? (s : Scope α) (e : Expr) : Option α :=
  match s.value? e with
  | some (.object a) => some a
  | _ => none

/-- What a method of the interpreter does. -/
def interpreterAction? (s : Scope α) : String → List Expr → Option (Action α)
  | "exec", [e] => match s.value? e with
    | some .imports => some .imports
    | some (.text t) => some (.exec t)
    | _ => none
  | "set", [.text name, e] => (s.object? e).map (.set name)
  | "invoke", .text path :: args => (args.mapM s.object?).map (.invoke path)
  | "getValue", [.text name, .verbatim _] => some (.fetch name)
  | _, _ => none

/-- What an expression does on the foreign side. -/
def action? (s : Scope α) : Expr → Option (Action α)
  | .call f args => do
    let (receiver, method) ← splitCall? f
    match s.lookup receiver with
    | some .interpreter => s.interpreterAction? method args
    | _ => none
  | _ => none

/-- What statements do on the foreign side; the last one gives the result. -/
def actions? (s : Scope α) : List Statement → Option (List (Action α))
  | [.give e] => (s.action? e).map ([·])
  | .run e :: more => do
    let action ← s.action? e
    let rest ← s.actions? more
    pure (action :: rest)
  | .declare _ name e :: more =>
    if (s.locals name).isSome then none
    else do
      let v ← s.value? e
      { s with locals := Function.update s.locals name (some v) }.actions? more
  | _ => none

end Scope

/-- What surrounds a call of a method. -/
structure Host (α : Type) where
  /-- The wrapped object, in a wrapper of a class. -/
  wrapped : α
  /-- What `py()` gives for a map of keywords. -/
  py : α → α

/-- The fields of a wrapper. -/
def Host.fields (host : Host α) : WrapperKind → Variables (Value α)
  | .libraryLevel => fun _ => none
  | .classLevel => fun name => if name = "pyObj" then some (.object host.wrapped) else none

/-- What a method of a wrapper does on the foreign side when it is called. -/
def Method.actions? (m : Method) (host : Host α) (kind : WrapperKind) (args : List (Value α)) :
    Option (List (Action α)) :=
  if args.length = m.params.length then
    Scope.actions? ⟨setAll (fun _ => none) ((m.params.map Param.name).zip args), host.fields kind,
      host.py⟩ m.body
  else none

/-! ## actions of statements -/

namespace Scope

variable {s : Scope α}

/-- A body ends with the action whose value it gives back. -/
theorem actions?_give {e : Expr} {a : Action α} (h : s.action? e = some a) :
    s.actions? [.give e] = some [a] := by
  rw [actions?, h]
  rfl

/-- A statement for its effect puts its action in front. -/
theorem actions?_run {e : Expr} {a : Action α} (h : s.action? e = some a)
    {more : List Statement} {rest : List (Action α)} (hmore : s.actions? more = some rest) :
    s.actions? (.run e :: more) = some (a :: rest) := by
  rw [actions?, h, hmore]
  rfl

/-- A method of the interpreter is called on the variable `i`. -/
theorem action?_call {f : String} (method : String) (hf : splitCall? f = some ("i", method))
    (hi : s.lookup "i" = some .interpreter) (args : List Expr) :
    s.action? (.call f args) = s.interpreterAction? method args := by
  rw [action?, hf]
  change (match s.lookup "i" with | some .interpreter => _ | _ => none) = _
  rw [hi]

/-- A variable stands for the object it holds. -/
theorem object?_verbatim {name : String} {value : α}
    (h : s.locals name = some (.object value)) : s.object? (.verbatim name) = some value := by
  rw [object?, value?, lookup, h]
  rfl

/-- Variables in an argument list stand for their objects, in order. -/
theorem mapM_object? {names : List String} {values : List α}
    (h : s.locals.Have names (values.map .object)) :
    (names.map Expr.verbatim).mapM s.object? = some values := by
  induction values generalizing names with
  | nil =>
      cases h
      rfl
  | cons value values ih =>
      cases h with
      | cons hvalue hmore =>
          rw [List.map_cons, List.mapM_cons, object?_verbatim hvalue, ih hmore]
          rfl

section

variable (hi : s.lookup "i" = some .interpreter)
include hi

/-- The import text is handed to the interpreter by its method. -/
theorem action?_imports : s.action? (.call "i.exec" [.call "imports" []]) = some .imports := by
  rw [action?_call "exec" (by decide) hi]
  rfl

/-- A text in quotes is executed as that text. -/
theorem action?_exec (text : String) :
    s.action? (.call "i.exec" [.text text]) = some (.exec text) := by
  rw [action?_call "exec" (by decide) hi]
  rfl

/-- Setting takes the name in quotes and an object. -/
theorem action?_set (name : String) {e : Expr} {value : α} (h : s.object? e = some value) :
    s.action? (.call "i.set" [.text name, e]) = some (.set name value) := by
  rw [action?_call "set" (by decide) hi]
  change (s.object? e).map (Action.set name) = _
  rw [h]
  rfl

/-- An invocation takes the path in quotes and the objects behind it. -/
theorem action?_invoke (path : String) {args : List Expr} {values : List α}
    (h : args.mapM s.object? = some values) :
    s.action? (.call "i.invoke" (.text path :: args)) = some (.invoke path values) := by
  rw [action?_call "invoke" (by decide) hi]
  change (args.mapM s.object?).map (Action.invoke path) = _
  rw [h]
  rfl

/-- The value is fetched by the name in quotes, the type is not looked at. -/
theorem action?_fetch (name type : String) :
    s.action? (.call "i.getValue" [.text name, .verbatim type]) = some (.fetch name) := by
  rw [action?_call "getValue" (by decide) hi]
  rfl

/-- A row of assignments sets the positional variables one by one. -/
theorem actions?_sets {names : List String} {values : List α}
    (h : s.locals.Have names (values.map .object)) {more : List Statement}
    {rest : List (Action α)} (hmore : s.actions? more = some rest) :
    s.actions? (names.map (fun name => setVariable name (.verbatim name)) ++ more) =
      some ((names.zip values).map (fun x => .set x.1 x.2) ++ rest) := by
  induction values generalizing names with
  | nil =>
      cases h
      exact hmore
  | cons value values ih =>
      cases h with
      | cons hvalue hvalues =>
          exact actions?_run (action?_set hi _ (object?_verbatim hvalue)) (ih hvalues)

end

end Scope

end BindingSynthesis.Java
