import BindingSynthesis.Java.Emission
import BindingSynthesis.Proofs.HostNames
import BindingSynthesis.Proofs.Overloads
import Mathlib.Data.List.Nodup

/-!
# BindingSynthesis.Proofs.JavaOverloads

Java tells the methods of a class apart by their names and the types of their
parameters, and refuses a class with two methods that it cannot tell apart.

1. The methods of two bindings are told apart exactly if the bindings have
   different signatures (`overloadOf_injective`), and those of one wrapper do.
2. The class of a wrapper has helper methods besides: `imports()`, and `py()` if
   it wraps a class.  No foreign name is reserved for them.
3. So the class is refused exactly if a callable has the name of a helper and
   can be called without arguments (`nodup_overloads_iff`).
-/

namespace BindingSynthesis

namespace Java

/-- What tells the methods of a class apart. -/
structure Overload where
  name : String
  types : List String
  deriving DecidableEq, Repr

/-- The name of a method and the types of its parameters. -/
def Method.overload (m : Method) : Overload := ⟨m.name, m.params.map Param.type⟩

/-- The overloads that a class declares, one for each method.  Constructors have
no result type and are left out. -/
def CompilationUnit.overloads (u : CompilationUnit) : List Overload :=
  (u.methods.filter fun m => m.result?.isSome).map Method.overload

/-! ## signatures as overloads -/

/-- The types of the parameters of a method with this signature. -/
def parameterTypes (o : EmissionOptions) (s : Signature) : List String :=
  List.replicate s.arity "Object" ++ if s.keywordTail then [o.keywordMapType] else []

/-- The overload of a method with this signature. -/
def overloadOf (o : EmissionOptions) (s : Signature) : Overload := ⟨s.name, parameterTypes o s⟩

theorem length_parameterTypes (o : EmissionOptions) (s : Signature) :
    (parameterTypes o s).length = s.arity + s.keywordTail.toNat := by
  rw [parameterTypes]
  cases s.keywordTail <;> simp

theorem count_parameterTypes {o : EmissionOptions} (h : o.keywordMapType ≠ "Object")
    (s : Signature) : (parameterTypes o s).count "Object" = s.arity := by
  rw [parameterTypes]
  cases s.keywordTail <;> simp [h]

/-- The overload of a method depends on nothing but the signature of its binding. -/
theorem overload_bindingMethod (o : EmissionOptions) (b : Binding) :
    (bindingMethod o b).overload = overloadOf o b.signature := by
  have htypes : (b.positionalArgs.map fun name => (⟨"Object", name⟩ : Param)).map Param.type =
      List.replicate b.arity "Object" := by
    rw [List.map_map, ← b.length_positionalArgs]
    exact List.map_const
  change Overload.mk b.name ((bindingParams o b).map Param.type) = _
  rw [bindingParams, List.map_append, htypes, overloadOf, parameterTypes]
  cases hb : b.keywordTail <;> simp [Binding.signature, hb]

/-- **Signatures are told apart**: the number of objects among the types is the
arity, and there is one type more if a map of keywords follows. -/
theorem overloadOf_injective {o : EmissionOptions} (h : o.keywordMapType ≠ "Object") :
    Function.Injective (overloadOf o) := by
  rintro ⟨name, arity, tail⟩ ⟨name', arity', tail'⟩ he
  obtain ⟨hname, htypes⟩ := Overload.mk.inj he
  have harity : arity = arity' := by
    have hcount := congrArg (List.count "Object") htypes
    rwa [count_parameterTypes h, count_parameterTypes h] at hcount
  have htail : tail = tail' := by
    have hlength := congrArg List.length htypes
    rw [length_parameterTypes, length_parameterTypes, harity] at hlength
    cases tail <;> cases tail' <;> simp at hlength ⊢
  cases hname
  rw [harity, htail]

/-! ## the methods of a class -/

/-- The names of the methods that the class of a wrapper has besides those of
its bindings. -/
def helperNames : WrapperKind → List String
  | .libraryLevel => ["imports"]
  | .classLevel => ["py", "imports"]

/-- Helpers have no parameters. -/
def helperSignature (name : String) : Signature := ⟨name, 0, false⟩

/-- The methods and constructors that the class of a wrapper has besides the
methods of its bindings. -/
def helpers (w : Wrapper) : List Method :=
  match w.kind with
  | .libraryLevel => [importsMethod w]
  | .classLevel => [receiverConstructor w, receiverAccessor, importsMethod w]

/-- The method that a member is, if it is one. -/
def methodOf? : Member → Option Method
  | .method m => some m
  | .field .. => none

theorem methods_eq_filterMap (u : CompilationUnit) :
    u.methods = u.members.filterMap methodOf? := rfl

theorem methods_compilationUnit (o : EmissionOptions) (package : String) (w : Wrapper) :
    (compilationUnit o package w).methods = helpers w ++ w.bindings.map (bindingMethod o) := by
  have hbindings : (w.bindings.map fun b => Member.method (bindingMethod o b)).filterMap
      methodOf? = w.bindings.map (bindingMethod o) := by
    rw [List.filterMap_map]
    exact congrFun List.filterMap_eq_map' w.bindings
  have hhelpers : (receiverMembers w).filterMap methodOf? ++ [importsMethod w] = helpers w := by
    rw [receiverMembers, helpers]
    cases w.kind <;> rfl
  have himports : methodOf? (Member.method (importsMethod w)) = some (importsMethod w) := rfl
  have hmembers : (compilationUnit o package w).members = receiverMembers w ++
      Member.method (importsMethod w) ::
        w.bindings.map fun b => Member.method (bindingMethod o b) := rfl
  rw [methods_eq_filterMap, hmembers, List.filterMap_append, List.filterMap_cons_some himports,
    hbindings, ← hhelpers, List.append_assoc, List.singleton_append]

theorem overloads_helpers (o : EmissionOptions) (w : Wrapper) :
    ((helpers w).filter fun m => m.result?.isSome).map Method.overload =
      ((helperNames w.kind).map helperSignature).map (overloadOf o) := by
  rw [helpers]
  cases w.kind <;> rfl

/-- The class of a wrapper declares its helpers and the overloads of its
bindings. -/
theorem overloads_compilationUnit (o : EmissionOptions) (package : String) (w : Wrapper) :
    (compilationUnit o package w).overloads =
      ((helperNames w.kind).map helperSignature ++ w.bindings.map Binding.signature).map
        (overloadOf o) := by
  have hall : (w.bindings.map (bindingMethod o)).filter (fun m => m.result?.isSome) =
      w.bindings.map (bindingMethod o) :=
    List.filter_eq_self.mpr (by simp [bindingMethod])
  have hbindings : (w.bindings.map (bindingMethod o)).map Method.overload =
      (w.bindings.map Binding.signature).map (overloadOf o) := by
    rw [List.map_map, List.map_map]
    exact List.map_congr_left fun b _ => overload_bindingMethod o b
  rw [CompilationUnit.overloads, methods_compilationUnit, List.filter_append, List.map_append,
    overloads_helpers o, hall, hbindings, List.map_append]

/-! ## collisions with helpers -/

/-- No foreign name but its own becomes the name of a helper. -/
theorem forBinding?_eq_helper_iff {kind : WrapperKind} {helper name : String}
    (h : helper ∈ helperNames kind) :
    HostName.forBinding? name = some helper ↔ name = helper := by
  have hcases : helper = "imports" ∨ helper = "py" := by
    cases kind <;> simp [helperNames] at h <;> tauto
  cases hcases with
  | inl he => exact he ▸ HostName.forBinding?_eq_some_iff (by decide) (by decide)
  | inr he => exact he ▸ HostName.forBinding?_eq_some_iff (by decide) (by decide)

section

open Synthesis

variable {o : SynthesisOptions} {l : Library} {w : Wrapper}

/-- A wrapper has a binding with the signature of a helper exactly if it wraps a
callable with the name of the helper that requires no arguments. -/
theorem helperSignature_mem_bindings (hw : w ∈ (synthesize o l).wrappers) {helper : String}
    (h : helper ∈ helperNames w.kind) :
    helperSignature helper ∈ w.bindings.map Binding.signature ↔
      ∃ c ∈ wrappedCallables o l w, c.name = helper ∧ requiredArguments w.kind c = 0 := by
  have hinit : helper ≠ "__init__" := by
    rintro rfl
    cases hk : w.kind <;> simp [helperNames, hk] at h
  rw [mem_signatures_bindings hw, helperSignature, nullary_mem_candidates hinit]
  simp only [forBinding?_eq_helper_iff h]

/-- **Where Java refuses a class**: the methods of the class of a wrapper are
told apart exactly if every callable with the name of a helper requires
arguments. -/
theorem nodup_overloads_iff (o : SynthesisOptions) (l : Library) (package : String) {w : Wrapper}
    (hw : w ∈ (synthesize o l).wrappers) :
    (compilationUnit {} package w).overloads.Nodup ↔
      ∀ c ∈ wrappedCallables o l w, c.name ∈ helperNames w.kind →
        requiredArguments w.kind c ≠ 0 := by
  have hhelpers : ((helperNames w.kind).map helperSignature).Nodup := by
    cases w.kind <;> decide
  have hinjective : Function.Injective (overloadOf {}) := overloadOf_injective (by decide)
  rw [overloads_compilationUnit, List.nodup_map_iff hinjective, List.nodup_append]
  constructor
  · rintro ⟨_, _, hdisjoint⟩ c hc hname hr
    have hmem := (helperSignature_mem_bindings hw hname).mpr ⟨c, hc, rfl, hr⟩
    exact hdisjoint _ (List.mem_map_of_mem hname) _ hmem rfl
  · intro hfree
    refine ⟨hhelpers, nodup_signatures_bindings hw, fun s hs t ht he => ?_⟩
    obtain ⟨helper, hhelper, rfl⟩ := List.mem_map.mp hs
    obtain ⟨c, hc, hname, hr⟩ := (helperSignature_mem_bindings hw hhelper).mp (he ▸ ht)
    exact hfree c hc (hname ▸ hhelper) hr

/-- A class whose methods have the names of helpers, but require an argument. -/
def demandingClass : ForeignClass :=
  ⟨"C", "lib", none,
    [⟨"py", ["self", "x"], 0, none, "lib"⟩, ⟨"imports", ["self", "x", "y"], 1, none, "lib"⟩]⟩

def demandingLibrary : Library := ⟨"lib", [], [demandingClass]⟩

/-- The methods share the names of helpers but not their signatures, so the unit repeats no
overload. -/
theorem nodup_overloads_demandingClass :
    (classWrapper {} "lib" demandingClass).1 ∈ (synthesize {} demandingLibrary).wrappers ∧
      (compilationUnit {} "p" (classWrapper {} "lib" demandingClass).1).overloads.Nodup := by
  have hwrapped : demandingClass ∈ wrappedClasses {} demandingLibrary := by
    have h : wrappedClasses {} demandingLibrary = [demandingClass] := by decide +kernel
    exact h ▸ List.mem_cons_self
  have hw : (classWrapper {} "lib" demandingClass).1 ∈ (synthesize {} demandingLibrary).wrappers :=
    mem_wrappers_synthesize.mpr (.inr ⟨demandingClass, hwrapped, rfl⟩)
  refine ⟨hw, (nodup_overloads_iff {} demandingLibrary "p" hw).mpr ?_⟩
  have hcallables : wrappedCallables {} demandingLibrary (classWrapper {} "lib" demandingClass).1 =
      demandingClass.methods := wrappedCallables_classWrapper (mem_of_mem_wrappedClasses hwrapped)
  rw [hcallables]
  decide

/-- A library with a function that has the name of a helper. -/
def importsLibrary : Library := ⟨"lib", [⟨"imports", [], 0, none, ""⟩], []⟩

/-- The class of this library has two methods `imports()`. -/
theorem not_nodup_overloads_importsLibrary :
    (libraryWrapper {} importsLibrary).1 ∈ (synthesize {} importsLibrary).wrappers ∧
      ¬(compilationUnit {} "p" (libraryWrapper {} importsLibrary).1).overloads.Nodup := by
  have hw := mem_wrappers_synthesize.mpr (Or.inl (Eq.refl (libraryWrapper {} importsLibrary).1))
  have htwice : (compilationUnit {} "p" (libraryWrapper {} importsLibrary).1).overloads =
      [⟨"imports", []⟩, ⟨"imports", []⟩] := by
    rw [overloads_compilationUnit]
    decide +kernel
  refine ⟨hw, ?_⟩
  rw [htwice]
  decide

end

end Java

end BindingSynthesis
