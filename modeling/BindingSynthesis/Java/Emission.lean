import BindingSynthesis.Java.Source
import BindingSynthesis.Options
import BindingSynthesis.Plan.Basic

/-!
# BindingSynthesis.Java.Emission

The Java class of a wrapper.

1. The class of a library has static methods only.  The class of a class keeps
   the wrapped object in a field, takes it in its constructor and gives it out
   by `py()`.
2. `imports()` gives the foreign statements that every method runs first.
3. A method without a map of keywords is one call with its arguments.  A method
   with one sets its arguments and the map as foreign variables, runs the
   foreign call as a statement that assigns its result, and fetches that.
-/

namespace BindingSynthesis.Java

/-- The foreign variable that holds the map of keywords. -/
def kwargsVariable : String := "py_kwargs"

/-! ## Methods -/

/-- The modifiers of a method that a wrapper of this level has for a binding. -/
def bindingModifiers : WrapperKind → String
  | .libraryLevel => "public static"
  | .classLevel => "public"

/-- The parameters of the method of a binding. -/
def bindingParams (o : EmissionOptions) (b : Binding) : List Param :=
  b.positionalArgs.map (fun name => ⟨"Object", name⟩) ++
    if b.keywordTail then [⟨o.keywordMapType, "kwargs"⟩] else []

/-- The statements that set a foreign variable to a Java value. -/
def setVariable (name : String) (value : Expr) : Statement :=
  .run (.call "i.set" [.text name, value])

/-- The call behind a method without a map of keywords. -/
def positionalCall (b : Binding) : List Statement :=
  [.give (.call "i.invoke" (.text b.target.path :: b.positionalArgs.map .verbatim))]

/-- The call behind a method with a map of keywords. -/
def keywordCall (o : EmissionOptions) (b : Binding) : List Statement :=
  b.positionalArgs.map (fun name => setVariable name (.verbatim name)) ++
    [setVariable kwargsVariable (.call "kwargs.py" []),
     .run (.call "i.exec" [.text ("result = " ++ b.foreignCall kwargsVariable)]),
     .give (.call "i.getValue" [.text "result", .verbatim (o.foreignObjectType ++ ".class")])]

/-- The statements of the method of a binding. -/
def bindingBody (o : EmissionOptions) (b : Binding) : List Statement :=
  [.declare o.interpreterType "i" (.verbatim o.interpreterAccessor),
   .run (.call "i.exec" [.call "imports" []])] ++
    (match b.ownerKind with
      | .libraryLevel => []
      | .classLevel => [setVariable "self" (.verbatim "pyObj")]) ++
    if b.keywordTail then keywordCall o b else positionalCall b

/-- The method of a binding. -/
def bindingMethod (o : EmissionOptions) (b : Binding) : Method where
  comment := b.doc
  modifiers := bindingModifiers b.ownerKind
  result? := some "Object"
  name := b.name
  params := bindingParams o b
  body := bindingBody o b

/-- The method that gives the foreign statements to run before every call. -/
def importsMethod (w : Wrapper) : Method where
  comment := "Foreign statements run before every call."
  modifiers := match w.kind with
    | .libraryLevel => "protected static"
    | .classLevel => "protected"
  result? := some "String"
  name := "imports"
  params := []
  body := [.give (.text w.importScript)]

/-- The constructor of the class of a class. -/
def receiverConstructor (w : Wrapper) : Method where
  modifiers := "public"
  result? := none
  name := w.name
  params := [⟨"Object", "pyObj"⟩]
  body := [.assign "this.pyObj" (.verbatim "pyObj")]

/-- The method that gives out the wrapped object. -/
def receiverAccessor : Method where
  modifiers := "public"
  result? := some "Object"
  name := "py"
  params := []
  body := [.give (.verbatim "this.pyObj")]

/-! ## Classes -/

/-- The members that keep the wrapped object. -/
def receiverMembers (w : Wrapper) : List Member :=
  match w.kind with
  | .libraryLevel => []
  | .classLevel =>
    [.field "private" "Object" "pyObj", .method (receiverConstructor w), .method receiverAccessor]

/-- The text of the block comment of the class of a wrapper. -/
def classComment (w : Wrapper) : String :=
  match w.kind with
  | .libraryLevel => "Wrapper for foreign module: " ++ w.foreignName
  | .classLevel =>
    "Wrapper for foreign class: " ++ w.foreignName ++ " (module: " ++ w.modulePath ++ ")" ++
      if w.doc = "" then "" else "\n\n" ++ w.doc

/-- The compilation unit of a wrapper. -/
def compilationUnit (o : EmissionOptions) (package : String) (w : Wrapper) : CompilationUnit where
  origin := "Generated by wrapweld for " ++ w.foreignName ++ " - do not edit"
  package := package
  comment := classComment w
  name := w.name
  members := receiverMembers w ++ .method (importsMethod w) ::
    w.bindings.map fun b => .method (bindingMethod o b)

/-- The Java source of a wrapper. -/
def source (o : EmissionOptions) (package : String) (w : Wrapper) : String :=
  (compilationUnit o package w).source

/-- The name of the file for the Java source of a wrapper. -/
def fileName (w : Wrapper) : String := w.name ++ ".java"

end BindingSynthesis.Java
