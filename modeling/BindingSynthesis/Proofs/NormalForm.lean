import BindingSynthesis.Library.Document
import BindingSynthesis.Synthesis
import Mathlib.Data.List.Forall2
import Mathlib.Data.List.TakeWhile

/-!
# BindingSynthesis.Proofs.NormalForm

The normal form of a library, and what synthesis sees of it.

```
function        declared in its module, or else in the library
method          declared in its module, or else in the module of its class
optional count  at most the number of parameters
```

1. A valid document describes the library that it states, in normal form
   (`ofDocument_eq_ok_iff`).  What is in normal form is left as it is
   (`normalized_eq_self`).
2. Synthesis itself repairs modules and counts where it reads them, so callables in
   normal form make the same offers (`functionOffers_settled`,
   `methodOffers_settled`), the same classes are chosen (`dedupe_map`), and the plan
   is the same (`synthesize_normalized`).
-/

namespace BindingSynthesis

/-! ## blank texts -/

namespace Text

/-- A text trims to nothing just when the check for a blank text accepts it. -/
theorem trim_eq_empty_iff {s : String} : trim s = "" ↔ isBlank s = true := by
  rw [trim, ← String.toList_eq_nil_iff, String.toList_ofList, trimChars, List.reverse_eq_nil_iff,
    List.dropWhile_eq_nil_iff, isBlank, List.all_eq_true]
  constructor
  · intro h c hc
    rw [← List.takeWhile_append_dropWhile (p := isBlankChar) (l := s.toList), List.mem_append] at hc
    obtain hfront | hrest := hc
    · exact List.mem_takeWhile_imp hfront
    · exact h c (List.mem_reverse.mpr hrest)
  · intro h c hc
    exact h c ((List.dropWhile_sublist _).subset (List.mem_reverse.mp hc))

/-- The same the other way round, as the reader asks it of a library name. -/
theorem trim_ne_empty_iff {s : String} : trim s ≠ "" ↔ isBlank s = false := by
  rw [Ne, trim_eq_empty_iff, Bool.not_eq_true]

end Text

/-! ## callables -/

namespace Callable

variable (c : Callable) (parent : String)

/-- The callable in normal form, in a module of its own or else in this one. -/
def settled : Callable := (c.inModule parent).clamped

@[simp] theorem name_settled : (c.settled parent).name = c.name := by
  rw [settled, inModule]
  split <;> rfl

@[simp] theorem params_settled : (c.settled parent).params = c.params := by
  rw [settled, inModule]
  split <;> rfl

@[simp] theorem doc_settled : (c.settled parent).doc = c.doc := by
  rw [settled, inModule]
  split <;> rfl

/-- An empty module path is filled in from the owner; a stated one stays. -/
@[simp] theorem modulePath_settled :
    (c.settled parent).modulePath = if c.modulePath = "" then parent else c.modulePath := by
  rw [settled, inModule]
  split <;> rfl

/-- The count of a settled callable is the clamped one, so the clamp is a fixed point. -/
@[simp] theorem optionalCount_settled : (c.settled parent).optionalCount = c.optionalParams := by
  rw [settled, inModule]
  split <;> rfl

/-- Settling a callable keeps the number of its parameters. -/
@[simp] theorem totalParams_settled : (c.settled parent).totalParams = c.totalParams := by
  simp [totalParams]

@[simp] theorem optionalParams_settled :
    (c.settled parent).optionalParams = c.optionalParams := by
  rw [settled, optionalParams_clamped, inModule]
  split <;> rfl

/-- A callable in normal form is left as it is. -/
theorem settled_eq_self {c : Callable} {parent : String}
    (hmodule : c.modulePath = "" → parent = "") (hcount : c.optionalCount ≤ c.params.length) :
    c.settled parent = c := by
  obtain ⟨name, params, optionalCount, doc, modulePath⟩ := c
  have hmin : min optionalCount params.length = optionalCount := Nat.min_eq_left hcount
  by_cases hempty : modulePath = ""
  · simp [settled, inModule, clamped, optionalParams, hempty, hmodule hempty, hmin]
  · simp [settled, inModule, clamped, optionalParams, hempty, hmin]

end Callable

/-! ## libraries -/

namespace ForeignClass

/-- A class keeps its own fields and settles its methods under its module path. -/
theorem normalized_eq (c : ForeignClass) :
    c.normalized = { c with methods := c.methods.map (Callable.settled · c.modulePath) } := rfl

@[simp] theorem name_normalized (c : ForeignClass) : c.normalized.name = c.name := rfl

@[simp] theorem modulePath_normalized (c : ForeignClass) :
    c.normalized.modulePath = c.modulePath := rfl

@[simp] theorem doc_normalized (c : ForeignClass) : c.normalized.doc = c.doc := rfl

@[simp] theorem qualifiedName_normalized (c : ForeignClass) :
    c.normalized.qualifiedName = c.qualifiedName := rfl

end ForeignClass

namespace Library

/-- The library in normal form. -/
def normalized (l : Library) : Library where
  name := l.name
  functions := l.functions.map (Callable.settled · l.name)
  classes := l.classes.map ForeignClass.normalized

/-- The functions and methods of a library. -/
def callables (l : Library) : List Callable := l.functions ++ l.classes.flatMap ForeignClass.methods

/-- The library is in normal form. -/
structure IsNormal (l : Library) : Prop where
  named : Text.trim l.name ≠ ""
  module_ne : ∀ f ∈ l.functions, f.modulePath ≠ ""
  module_class : ∀ c ∈ l.classes, ∀ m ∈ c.methods, m.modulePath = "" → c.modulePath = ""
  count_le : ∀ c ∈ l.callables, c.optionalCount ≤ c.params.length

/-- A name that trims to something is not the empty one. -/
theorem name_ne_empty {name : String} (h : Text.trim name ≠ "") : name ≠ "" := by
  rintro rfl
  exact h (Text.trim_eq_empty_iff.mpr Text.isBlank_empty)

/-- The callables of the normal form are those of the library in normal form. -/
theorem exists_settled_of_mem_callables {l : Library} {c : Callable}
    (h : c ∈ l.normalized.callables) : ∃ d ∈ l.callables, ∃ parent, c = d.settled parent := by
  obtain hc | hc := List.mem_append.mp h
  · obtain ⟨f, hf, rfl⟩ := List.mem_map.mp hc
    exact ⟨f, List.mem_append_left _ hf, _, rfl⟩
  · obtain ⟨k, hk, hc⟩ := List.mem_flatMap.mp hc
    obtain ⟨d, hd, rfl⟩ := List.mem_map.mp hk
    obtain ⟨m, hm, rfl⟩ := List.mem_map.mp hc
    exact ⟨m, List.mem_append_right _ (List.mem_flatMap.mpr ⟨d, hd, hm⟩), _, rfl⟩

/-- Normalizing makes every field of the normal form true, whatever library it is given. -/
theorem isNormal_normalized {l : Library} (h : Text.trim l.name ≠ "") : l.normalized.IsNormal where
  named := h
  module_ne f hf := by
    obtain ⟨g, -, rfl⟩ := List.mem_map.mp hf
    rw [Callable.modulePath_settled]
    split
    · exact name_ne_empty h
    · assumption
  module_class c hc m hm hempty := by
    obtain ⟨d, -, rfl⟩ := List.mem_map.mp hc
    rw [ForeignClass.normalized_eq] at hm
    obtain ⟨n, -, rfl⟩ := List.mem_map.mp hm
    rw [Callable.modulePath_settled] at hempty
    split at hempty
    · exact hempty
    · contradiction
  count_le c hc := by
    obtain ⟨d, -, parent, rfl⟩ := exists_settled_of_mem_callables hc
    rw [Callable.optionalCount_settled, Callable.params_settled]
    exact d.optionalParams_le

/-- **A normal form is left as it is**. -/
theorem normalized_eq_self {l : Library} (h : l.IsNormal) : l.normalized = l := by
  have hfunctions : l.functions.map (Callable.settled · l.name) = l.functions := by
    refine (List.map_congr_left fun f hf => ?_).trans (List.map_id _)
    exact Callable.settled_eq_self (fun hempty => absurd hempty (h.module_ne f hf))
      (h.count_le f (List.mem_append_left _ hf))
  have hclasses : l.classes.map ForeignClass.normalized = l.classes := by
    refine (List.map_congr_left fun c hc => ?_).trans (List.map_id _)
    have hmethods : c.methods.map (Callable.settled · c.modulePath) = c.methods := by
      refine (List.map_congr_left fun m hm => ?_).trans (List.map_id _)
      exact Callable.settled_eq_self (h.module_class c hc m hm)
        (h.count_le m (List.mem_append_right _ (List.mem_flatMap.mpr ⟨c, hc, hm⟩)))
    rw [ForeignClass.normalized_eq, hmethods]
    rfl
  rw [normalized, hfunctions, hclasses]

end Library

/-! ## documents -/

/-- What a document states of the library with this name. -/
def MetadataDocument.stated (d : MetadataDocument) (name : String) : Library :=
  ⟨name, d.functions, d.classes⟩

/-- The second callable is the first in normal form, where callables without a module
belong to `parent`. -/
structure Callable.Settles (parent : String) (c c' : Callable) : Prop where
  name : c'.name = c.name
  params : c'.params = c.params
  doc : c'.doc = c.doc
  modulePath : c'.modulePath = if c.modulePath = "" then parent else c.modulePath
  optionalCount : c'.optionalCount = min c.optionalCount c.params.length

/-- The second class is the first with its methods in normal form, in their order. -/
structure ForeignClass.Settles (c c' : ForeignClass) : Prop where
  name : c'.name = c.name
  modulePath : c'.modulePath = c.modulePath
  doc : c'.doc = c.doc
  methods : List.Forall₂ (Callable.Settles c.modulePath) c.methods c'.methods

/-- The library has the name that the document gives, and its functions and classes in
normal form, in their order. -/
structure MetadataDocument.Describes (d : MetadataDocument) (l : Library) : Prop where
  library : d.library = some l.name
  functions : List.Forall₂ (Callable.Settles l.name) d.functions l.functions
  classes : List.Forall₂ ForeignClass.Settles d.classes l.classes

/-- A settled callable satisfies its own relation to the callable that was read. -/
theorem Callable.settles_settled (parent : String) (c : Callable) :
    Callable.Settles parent c (c.settled parent) where
  name := c.name_settled parent
  params := c.params_settled parent
  doc := c.doc_settled parent
  modulePath := c.modulePath_settled parent
  optionalCount := c.optionalCount_settled parent

/-- A relation that holds of each element and its image holds of a list and its image. -/
theorem forall₂_map_right_of {α β : Type} {R : α → β → Prop} {f : α → β} (h : ∀ a, R a (f a))
    (as : List α) : List.Forall₂ R as (as.map f) := by
  rw [List.forall₂_map_right_iff]
  exact List.forall₂_same.mpr fun a _ => h a

/-- A normalized class stands in the settled relation to the class that was read, method
by method. -/
theorem ForeignClass.settles_normalized (c : ForeignClass) :
    ForeignClass.Settles c c.normalized where
  name := rfl
  modulePath := rfl
  doc := rfl
  methods := forall₂_map_right_of (Callable.settles_settled c.modulePath) c.methods

/-- A document that names its library describes the normal form of what it states. -/
theorem MetadataDocument.describes_normalized (d : MetadataDocument) {name : String}
    (h : d.library = some name) : d.Describes (d.stated name).normalized where
  library := h
  functions := forall₂_map_right_of (Callable.settles_settled name) d.functions
  classes := forall₂_map_right_of ForeignClass.settles_normalized d.classes

namespace Library

variable {d : MetadataDocument}

/-- A document gives a library when it reports no error and has a name that is not blank. -/
theorem ofDocument_eq_ok_iff {l : Library} : ofDocument d = .ok l ↔
    d.error = none ∧ ∃ name, d.library = some name ∧ Text.trim name ≠ "" ∧
      l = (d.stated name).normalized := by
  obtain ⟨library, error, functions, classes⟩ := d
  cases error with
  | some message => simp [ofDocument]
  | none =>
      cases library with
      | none => simp [ofDocument]
      | some name =>
          have hlibrary (m : String) : some name = some m ↔ m = name := by grind
          simp only [ofDocument, true_and, hlibrary, exists_eq_left, Text.trim_ne_empty_iff]
          cases Text.isBlank name with
          | true => simp
          | false =>
              simp only [Bool.false_eq_true, if_false, true_and, Except.ok.injEq]
              exact eq_comm

/-- A reported error wins over everything else in the document. -/
theorem ofDocument_eq_extractor_iff {library message : String} :
    ofDocument d = .error (.extractor library message) ↔
      d.error = some message ∧ library = d.library.getD "" := by
  obtain ⟨name?, error, functions, classes⟩ := d
  cases error with
  | some other =>
      simp only [ofDocument, Except.error.injEq, DocumentError.extractor.injEq, Option.some.injEq]
      grind
  | none =>
      cases name? with
      | none => simp [ofDocument]
      | some name =>
          simp only [ofDocument, reduceCtorEq, false_and, iff_false]
          split <;> simp

/-- The missing name is found only in documents that report no error. -/
theorem ofDocument_eq_missingName_iff : ofDocument d = .error .missingName ↔
    d.error = none ∧ ∀ name, d.library = some name → Text.trim name = "" := by
  obtain ⟨library, error, functions, classes⟩ := d
  cases error with
  | some message => simp [ofDocument]
  | none =>
      cases library with
      | none => simp [ofDocument]
      | some name =>
          simp only [ofDocument, true_and, Option.some.injEq, forall_eq', Text.trim_eq_empty_iff]
          cases Text.isBlank name <;> simp

end Library

/-! ## synthesis -/

namespace Synthesis

variable (o : SynthesisOptions) (library owner : String)

/-- A function whose module is filled in from the library is called under the same path. -/
@[simp] theorem functionTarget_settled (f : Callable) :
    functionTarget library (f.settled library) = functionTarget library f := by
  rw [functionTarget, functionTarget, Callable.modulePath_settled, Callable.name_settled]
  by_cases hempty : f.modulePath = ""
  · simp [hempty]
  · rw [if_neg hempty]

/-- **Functions in normal form** make the same offers. -/
theorem functionOffers_settled (f : Callable) :
    functionOffers o library owner (f.settled library) = functionOffers o library owner f := by
  simp [functionOffers, binding]

/-- The import of a function reads an absent module as the library too. -/
theorem functionImport?_settled (f : Callable) :
    functionImport? library (f.settled library) = functionImport? library f := by
  simp [functionImport?]

/-- **Methods in normal form** make the same offers, whatever the module of their class. -/
theorem methodOffers_settled (m : Callable) (parent : String) :
    methodOffers o owner (m.settled parent) = methodOffers o owner m := by
  simp [methodOffers, binding]

/-- The methods of a class offer the same bindings before and after the settling. -/
theorem classOffers_normalized (c : ForeignClass) :
    classOffers o c.normalized = classOffers o c := by
  rw [ForeignClass.normalized_eq, classOffers, List.flatMap_map]
  simp only [methodOffers_settled]
  rfl

/-- So the wrapper of a class and its log are the same. -/
theorem classWrapper_normalized (c : ForeignClass) :
    classWrapper o library c.normalized = classWrapper o library c := by
  rw [classWrapper, classOffers_normalized]
  rfl

/-- The wrappers of a list of classes follow one by one, under any names already taken. -/
theorem classWrappers_normalized (taken : List String) (cs : List ForeignClass) :
    classWrappers o library taken (cs.map ForeignClass.normalized) =
      classWrappers o library taken cs := by
  induction cs generalizing taken with
  | nil => rfl
  | cons c cs ih =>
      have hname : classWrapperName o c.normalized = classWrapperName o c := rfl
      simp only [List.map_cons, classWrappers, hname, ih, classWrapper_normalized,
        ForeignClass.qualifiedName_normalized]

end Synthesis

namespace Dedupe

variable {f : ForeignClass → ForeignClass}

/-- Choosing among classes of one name looks at names and module paths only. -/
theorem place_map (hname : ∀ c, (f c).name = c.name)
    (hmodule : ∀ c, (f c).modulePath = c.modulePath) (canonical : String) (c : ForeignClass) (chosen : List ForeignClass) :
    place canonical (f c) (chosen.map f) = (place canonical c chosen).map f := by
  induction chosen with
  | nil => rfl
  | cons d more ih =>
      rw [List.map_cons, place, place, hname, hname, hmodule, hmodule, ih]
      split
      · split <;> rfl
      · rfl

/-- So the choice commutes with every map that keeps these two. -/
theorem foldl_place_map (hname : ∀ c, (f c).name = c.name)
    (hmodule : ∀ c, (f c).modulePath = c.modulePath) (canonical : String)
    (cs chosen : List ForeignClass) :
    (cs.map f).foldl (fun chosen c => place canonical c chosen) (chosen.map f) =
      (cs.foldl (fun chosen c => place canonical c chosen) chosen).map f := by
  induction cs generalizing chosen with
  | nil => rfl
  | cons c cs ih =>
      rw [List.map_cons, List.foldl_cons, List.foldl_cons, place_map hname hmodule, ih]

/-- **Classes are chosen by their names and modules**: a change of classes that keeps
these changes the chosen classes only. -/
theorem dedupe_map (hname : ∀ c, (f c).name = c.name)
    (hmodule : ∀ c, (f c).modulePath = c.modulePath) (o : SynthesisOptions) (library : String) (cs : List ForeignClass) :
    dedupe o library (cs.map f) = (dedupe o library cs).map f := by
  have hpermitted : permitted o (cs.map f) = (permitted o cs).map f := by
    rw [permitted, List.filter_map]
    simp only [Function.comp_def, hmodule]
    rfl
  rw [dedupe, hpermitted]
  exact foldl_place_map hname hmodule _ _ []

end Dedupe

namespace Synthesis

variable (o : SynthesisOptions)

/-- The wrapper of the library functions does not see the normal form either. -/
theorem libraryWrapper_normalized (l : Library) :
    libraryWrapper o l.normalized = libraryWrapper o l := by
  have hoffers : libraryOffers o l.normalized = libraryOffers o l := by
    rw [libraryOffers, Library.normalized, List.flatMap_map]
    simp only [functionOffers_settled]
    rfl
  have himports : libraryImports l.normalized = libraryImports l := by
    rw [libraryImports, Library.normalized, List.filterMap_map]
    simp only [Function.comp_def, functionImport?_settled]
    rfl
  rw [libraryWrapper, hoffers, himports]
  rfl

/-- **The plan of a library is that of its normal form**. -/
theorem synthesize_normalized (l : Library) : synthesize o l.normalized = synthesize o l := by
  have hclasses : Dedupe.dedupe o l.normalized.name l.normalized.classes =
      (Dedupe.dedupe o l.name l.classes).map ForeignClass.normalized :=
    Dedupe.dedupe_map ForeignClass.name_normalized ForeignClass.modulePath_normalized ..
  simp only [synthesize, libraryWrapper_normalized, hclasses, classWrappers_normalized]
  rfl

/-- **Validation does not show in the plan**: a document without an error and with a
name that is not blank describes a library in normal form, and its plan is that of
the library as the document states it. -/
theorem synthesize_stated {d : MetadataDocument} {name : String} (herror : d.error = none)
    (hlibrary : d.library = some name) (hname : Text.trim name ≠ "") :
    ∃ l, Library.ofDocument d = .ok l ∧ l.IsNormal ∧ d.Describes l ∧
      synthesize o l = synthesize o ⟨name, d.functions, d.classes⟩ := by
  refine ⟨(d.stated name).normalized, ?_, Library.isNormal_normalized hname,
    d.describes_normalized hlibrary, synthesize_normalized o (d.stated name)⟩
  exact Library.ofDocument_eq_ok_iff.mpr ⟨herror, name, hlibrary, hname, rfl⟩

/-- A document that leaves out modules and counts too many optional parameters, with
two classes of one name. -/
def looseDocument : MetadataDocument :=
  ⟨some "lib", none,
    [⟨"f", ["a"], 3, none, ""⟩, ⟨"g", [], 0, some "g", "lib"⟩, ⟨"h", ["a"], 1, none, "lib.sub"⟩],
    [⟨"K", "lib.other", none, [⟨"run", ["self"], 7, none, ""⟩]⟩,
      ⟨"K", "lib.core.frame", none,
        [⟨"run", ["self", "a", "b"], 9, none, ""⟩, ⟨"run", ["self"], 0, none, "m"⟩]⟩,
      ⟨"L", "", none, [⟨"run", [], 1, none, ""⟩]⟩]⟩

/-- The library of that document is not the stated one, but its plan is. -/
theorem synthesize_looseDocument :
    looseDocument.error = none ∧ looseDocument.library = some "lib" ∧ Text.trim "lib" ≠ "" ∧
      ∃ l, Library.ofDocument looseDocument = .ok l ∧ l ≠ looseDocument.stated "lib" ∧
        synthesize {} l =
          synthesize {} ⟨"lib", looseDocument.functions, looseDocument.classes⟩ := by
  have hname : Text.trim "lib" ≠ "" := by decide
  obtain ⟨l, hl, hnormal, -, hplan⟩ :=
    synthesize_stated {} (d := looseDocument) rfl rfl hname
  refine ⟨rfl, rfl, hname, l, hl, ?_, hplan⟩
  rintro rfl
  exact hnormal.module_ne _ List.mem_cons_self rfl

end Synthesis

end BindingSynthesis
