import BindingSynthesis.CommentText
import BindingSynthesis.Dedupe
import BindingSynthesis.HostName
import BindingSynthesis.Overload
import BindingSynthesis.Plan.Basic

/-!
# BindingSynthesis.Synthesis

From a library to the plan of its bindings.

1. Each callable of a wrapper is judged on its own: it is refused, or it offers
   its overloads in the order of their shapes.
2. The offers are settled in order: the first offer of a signature is admitted,
   a later one is skipped as a duplicate.
3. The wrapper of the library comes first.  Then each class that is left after
   deduplication gets a wrapper, unless an earlier wrapper has the name.
-/

namespace BindingSynthesis.Synthesis

/-! ## Offers of one callable -/

/-- The foreign name of a method that constructs its object. -/
def constructorSymbol : String := "__init__"

/-- What a callable contributes: a refusal, or one overload. -/
inductive Offer where
  | refused (symbol : String) (reason : SkipReason)
  | overload (symbol : String) (binding : Binding)

/-- Where a free function is called: in the library itself if it is declared
there, otherwise in the submodule that declares it, under its alias. -/
def functionTarget (library : String) (f : Callable) : Target :=
  if f.modulePath = "" ∨ f.modulePath = library then .library library f.name
  else .aliased (HostName.moduleAlias f.modulePath) f.modulePath f.name

/-- The overload of a callable with one shape. -/
def binding (o : SynthesisOptions) (kind : WrapperKind) (owner host : String) (c : Callable)
    (target : Target) (shape : Shape) : Binding where
  ownerKind := kind
  ownerName := owner
  name := if shape.keywordTail then host ++ o.kwargsSuffix else host
  arity := shape.arity
  keywordTail := shape.keywordTail
  target := target
  requiresAlias := target.aliasName?.isSome
  doc := CommentText.ofDoc o.docMaxChars c.doc

/-- What a free function contributes. -/
def functionOffers (o : SynthesisOptions) (library owner : String) (f : Callable) : List Offer :=
  match HostName.forBinding? f.name with
  | none => [.refused f.name .invalidName]
  | some host =>
    (Shape.ofFunction f.totalParams).map fun shape =>
      .overload f.name (binding o .libraryLevel owner host f (functionTarget library f) shape)

/-- What a method contributes. -/
def methodOffers (o : SynthesisOptions) (owner : String) (m : Callable) : List Offer :=
  if m.name = constructorSymbol then [.refused m.name .constructor]
  else match HostName.forBinding? m.name with
    | none => [.refused m.name .invalidName]
    | some host =>
      (Shape.ofMethod m.totalParams m.optionalParams).map fun shape =>
        .overload m.name (binding o .classLevel owner host m (.receiver m.name) shape)

/-! ## Settling offers -/

/-- What is admitted and what is skipped. -/
structure Settled where
  bindings : List Binding
  skipped : List Skip

/-- Settles offers in order, given the signatures that are taken. -/
def settle (owner : String) : List Signature → List Offer → Settled
  | _, [] => ⟨[], []⟩
  | taken, .refused symbol reason :: more =>
    let rest := settle owner taken more
    { rest with skipped := ⟨owner, symbol, reason⟩ :: rest.skipped }
  | taken, .overload symbol b :: more =>
    if b.signature ∈ taken then
      let rest := settle owner taken more
      { rest with skipped := ⟨owner, symbol, .duplicateSignature b.arity b.keywordTail⟩ :: rest.skipped }
    else
      let rest := settle owner (b.signature :: taken) more
      { rest with bindings := b :: rest.bindings }

/-! ## Wrappers -/

/-- The import that a free function needs besides its library, if it has a
usable name. -/
def functionImport? (library : String) (f : Callable) : Option Import :=
  match HostName.forBinding? f.name, functionTarget library f with
  | some _, .aliased aliasName modulePath _ => some (.aliased aliasName modulePath)
  | _, _ => none

/-- The name of the wrapper of a library. -/
def libraryWrapperName (o : SynthesisOptions) (l : Library) : String :=
  o.ownerPrefix ++ HostName.capitalize (HostName.sanitize l.shortName)

/-- The name of the wrapper of a class. -/
def classWrapperName (o : SynthesisOptions) (c : ForeignClass) : String :=
  o.ownerPrefix ++ HostName.sanitize c.name

/-- The imports of the wrapper of a library: the library, then the submodules
in the order of the functions that need them. -/
def libraryImports (l : Library) : List Import :=
  (l.functions.filterMap (functionImport? l.name)).foldl (fun is i => i.require is) [.plain l.name]

/-- The offers of the functions of a library. -/
def libraryOffers (o : SynthesisOptions) (l : Library) : List Offer :=
  l.functions.flatMap (functionOffers o l.name (libraryWrapperName o l))

/-- The offers of the methods of a class. -/
def classOffers (o : SynthesisOptions) (c : ForeignClass) : List Offer :=
  c.methods.flatMap (methodOffers o (classWrapperName o c))

/-- The wrapper of a library, and what it skips. -/
def libraryWrapper (o : SynthesisOptions) (l : Library) : Wrapper × List Skip :=
  let name := libraryWrapperName o l
  let settled := settle name [] (libraryOffers o l)
  ({ Wrapper.forLibrary .libraryLevel name l.name l.name l.name with
      doc := "Wrapper for foreign module: " ++ l.name
      imports := libraryImports l
      bindings := settled.bindings },
   settled.skipped)

/-- The wrapper of a class, and what it skips. -/
def classWrapper (o : SynthesisOptions) (library : String) (c : ForeignClass) :
    Wrapper × List Skip :=
  let name := classWrapperName o c
  let settled := settle name [] (classOffers o c)
  ({ Wrapper.forLibrary .classLevel name c.name c.modulePath library with
      doc := CommentText.ofDoc o.docMaxChars c.doc
      bindings := settled.bindings },
   settled.skipped)

/-- The wrappers of classes in order, given the names that are taken, and what
they skip. -/
def classWrappers (o : SynthesisOptions) (library : String) :
    List String → List ForeignClass → List Wrapper × List Skip
  | _, [] => ([], [])
  | taken, c :: more =>
    let name := classWrapperName o c
    if name ∈ taken then
      let (wrappers, skipped) := classWrappers o library taken more
      (wrappers, ⟨name, c.qualifiedName, .ownerCollision⟩ :: skipped)
    else
      let (wrapper, own) := classWrapper o library c
      let (wrappers, skipped) := classWrappers o library (name :: taken) more
      (wrapper :: wrappers, own ++ skipped)

/-- The plan for a library. -/
def synthesize (o : SynthesisOptions) (l : Library) : Plan :=
  let (first, own) := libraryWrapper o l
  let (wrappers, skipped) :=
    classWrappers o l.name [first.name] (Dedupe.dedupe o l.name l.classes)
  { library := l.name, wrappers := first :: wrappers, skipped := own ++ skipped }

end BindingSynthesis.Synthesis
