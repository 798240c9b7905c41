import BindingSynthesis.Proofs.HostNames
import BindingSynthesis.Proofs.Overloads
import Mathlib.Data.List.Basic
import Mathlib.Data.List.Induction

/-!
# BindingSynthesis.Proofs.ImportEnvironment

What the foreign names in calls stand for once the imports have run.

An import binds one name to one module, and a later binding of a name replaces
an earlier one:

```
plain a.b           a     stands for  a
aliased _a_b a.b    _a_b  stands for  a.b
```

1. Imports are required one by one and run once each, so the last to be required
   for the first time decides what a name stands for
   (`after_requireAll_eq_some_iff`).
2. Aliases forget which characters of a path were not word characters.  A call
   through an alias reaches another module exactly if a module with the same
   alias is required after its own, and a call through the library misses it
   exactly if a submodule has the root of the library as its alias
   (`reaches_iff_unshadowed`).
-/

namespace BindingSynthesis

/-- The first segment of a dotted path. -/
def rootOf (modulePath : String) : String := (Text.segmentsOf '.' modulePath).headD modulePath

/-- What names stand for: modules, by their dotted paths. -/
abbrev Environment := String → Option String

/-! ## running imports -/

namespace Import

/-- The name that an import binds. -/
def boundName : Import → String
  | .plain modulePath => rootOf modulePath
  | .aliased aliasName _ => aliasName

/-- The module that the name stands for from then on. -/
def boundModule : Import → String
  | .plain modulePath => rootOf modulePath
  | .aliased _ modulePath => modulePath

/-- Runs an import. -/
def exec (env : Environment) (i : Import) : Environment := fun name =>
  if name = i.boundName then some i.boundModule else env name

end Import

namespace Environment

/-- The environment after imports, when nothing is bound before. -/
def after (is : List Import) : Environment := is.foldl Import.exec fun _ => none

/-- The last statement is executed in the environment of the others. -/
theorem after_append_singleton (is : List Import) (j : Import) :
    after (is ++ [j]) = Import.exec (after is) j := by
  rw [after, List.foldl_append]
  rfl

end Environment

/-- The imports that are left when imports are required one by one. -/
def requireAll (is : List Import) : List Import := is.foldl (fun acc i => i.require acc) []

/-- The last import is required of a list that has the others already. -/
theorem requireAll_append_singleton (is : List Import) (j : Import) :
    requireAll (is ++ [j]) = j.require (requireAll is) := by
  rw [requireAll, List.foldl_append]
  rfl

/-- Requiring drops repetitions and nothing else. -/
theorem mem_requireAll {i : Import} {is : List Import} : i ∈ requireAll is ↔ i ∈ is := by
  induction is using List.reverseRecOn with
  | nil => rfl
  | append_singleton is j ih =>
      rw [requireAll_append_singleton, Import.mem_require, ih, List.mem_append, List.mem_singleton]

/-- The import binds the name, and no import that binds it is required for the
first time after this one. -/
def DecidesName (is : List Import) (name : String) (i : Import) : Prop :=
  i ∈ is ∧ i.boundName = name ∧ ∀ j ∈ is, j.boundName = name → is.idxOf j ≤ is.idxOf i

/-- An import that is required again decides nothing. -/
theorem decidesName_append_of_mem {is : List Import} {name : String} {i j : Import} (hj : j ∈ is) :
    DecidesName (is ++ [j]) name i ↔ DecidesName is name i := by
  have hmem : ∀ k, k ∈ is ++ [j] ↔ k ∈ is := by
    intro k
    rw [List.mem_append, List.mem_singleton]
    exact ⟨fun h => h.elim id fun e => e ▸ hj, .inl⟩
  simp only [DecidesName, hmem]
  refine and_congr_right fun hi => and_congr_right fun _ => forall₂_congr fun k hk => ?_
  rw [List.idxOf_append_of_mem hk, List.idxOf_append_of_mem hi]

/-- A new import decides its own name. -/
theorem decidesName_append_self {is : List Import} {i j : Import} (hj : j ∉ is) :
    DecidesName (is ++ [j]) j.boundName i ↔ i = j := by
  have hlast : (is ++ [j]).idxOf j = is.length := by
    rw [List.idxOf_append_of_notMem hj, List.idxOf_cons_self, Nat.add_zero]
  constructor
  · rintro ⟨hi, _, hlater⟩
    have hle := hlater j (List.mem_append_right _ List.mem_cons_self) rfl
    rw [hlast] at hle
    cases List.mem_append.mp hi with
    | inl hm =>
        rw [List.idxOf_append_of_mem hm] at hle
        exact absurd (List.idxOf_lt_length_of_mem hm) (Nat.not_lt.mpr hle)
    | inr hm => exact List.mem_singleton.mp hm
  · rintro rfl
    refine ⟨List.mem_append_right _ List.mem_cons_self, rfl, fun k hk _ => ?_⟩
    rw [hlast]
    have hlt := List.idxOf_lt_length_of_mem hk
    rw [List.length_append, List.length_singleton] at hlt
    exact Nat.lt_succ_iff.mp hlt

/-- A new import decides no other name. -/
theorem decidesName_append_of_ne {is : List Import} {name : String} {i j : Import}
    (hname : name ≠ j.boundName) :
    DecidesName (is ++ [j]) name i ↔ DecidesName is name i := by
  have hmem : ∀ k, k ∈ is ++ [j] ∧ k.boundName = name ↔ k ∈ is ∧ k.boundName = name := by
    intro k
    rw [List.mem_append, List.mem_singleton]
    exact and_congr_left fun hk => or_iff_left fun e => hname (hk ▸ e ▸ rfl)
  rw [DecidesName, DecidesName, ← and_assoc, hmem, and_assoc]
  refine and_congr_right fun hi => and_congr_right fun _ => ?_
  refine ⟨fun h k hk hkn => ?_, fun h k hk hkn => ?_⟩
  · have hle := h k (List.mem_append_left _ hk) hkn
    rwa [List.idxOf_append_of_mem hk, List.idxOf_append_of_mem hi] at hle
  · have hk' := ((hmem k).mp ⟨hk, hkn⟩).1
    rw [List.idxOf_append_of_mem hk', List.idxOf_append_of_mem hi]
    exact h k hk' hkn

/-- **The last import decides**: after imports that are required one by one, a
name stands for the module of the import that decides it. -/
theorem after_requireAll_eq_some_iff {is : List Import} {name modulePath : String} :
    Environment.after (requireAll is) name = some modulePath ↔
      ∃ i, DecidesName is name i ∧ i.boundModule = modulePath := by
  induction is using List.reverseRecOn with
  | nil => simp [requireAll, Environment.after, DecidesName]
  | append_singleton is j ih =>
      rw [requireAll_append_singleton, Import.require]
      by_cases hj : j ∈ is
      · rw [if_pos (mem_requireAll.mpr hj), ih]
        simp only [decidesName_append_of_mem hj]
      · rw [if_neg (mt mem_requireAll.mp hj), Environment.after_append_singleton]
        by_cases hname : name = j.boundName
        · subst hname
          simp [Import.exec, decidesName_append_self hj]
        · simp only [decidesName_append_of_ne hname, ← ih, Import.exec, if_neg hname]

/-! ## the imports of a library -/

section

open Synthesis

variable {o : SynthesisOptions} {l : Library}

/-- The submodule that has to be imported for a function: the module that
declares it, unless that is the library or the function has no host name. -/
def submodule? (library : String) (f : Callable) : Option String :=
  if (HostName.forBinding? f.name).isSome ∧ f.modulePath ≠ "" ∧ f.modulePath ≠ library then
    some f.modulePath
  else none

/-- The submodules of a library, in the order of the functions that they are
imported for. -/
def submodules (l : Library) : List String := l.functions.filterMap (submodule? l.name)

/-- The import of a submodule. -/
def aliasImport (modulePath : String) : Import :=
  .aliased (HostName.moduleAlias modulePath) modulePath

/-- The import of a submodule names its path in full, so it tells the submodules apart
even where their aliases agree. -/
theorem aliasImport_injective : Function.Injective aliasImport := fun _ _ h =>
  (Import.aliased.inj h).2

/-- A function of a submodule is called through the alias of the submodule. -/
theorem functionTarget_of_submodule? {library modulePath : String} {f : Callable}
    (h : submodule? library f = some modulePath) :
    functionTarget library f =
      .aliased (HostName.moduleAlias modulePath) modulePath f.name := by
  rw [submodule?] at h
  split at h
  · next hs =>
      cases h
      rw [functionTarget, if_neg (not_or.mpr hs.2)]
  · cases h

/-- Every other usable function is called on the library. -/
theorem functionTarget_of_submodule?_eq_none {library : String} {f : Callable}
    (hhost : (HostName.forBinding? f.name).isSome) (h : submodule? library f = none) :
    functionTarget library f = .library library f.name := by
  rw [submodule?] at h
  split at h
  · cases h
  · next hs =>
      rw [functionTarget, if_pos]
      by_contra hne
      exact hs ⟨hhost, not_or.mp hne⟩

/-- A function needs an import just when it is in a submodule. -/
theorem functionImport?_eq (library : String) (f : Callable) :
    functionImport? library f = (submodule? library f).map aliasImport := by
  cases hhost : HostName.forBinding? f.name with
  | none => simp [functionImport?, submodule?, hhost]
  | some host =>
      have hsome : (HostName.forBinding? f.name).isSome := by simp [hhost]
      cases hs : submodule? library f with
      | none =>
          rw [functionImport?, hhost, functionTarget_of_submodule?_eq_none hsome hs]
          rfl
      | some modulePath =>
          rw [functionImport?, hhost, functionTarget_of_submodule? hs]
          rfl

/-- The imports of a library in the order in which they are required. -/
def requiredImports (l : Library) : List Import := .plain l.name :: (submodules l).map aliasImport

/-- The synthesizer requires the imports in the order of the functions. -/
theorem libraryImports_eq (l : Library) : libraryImports l = requireAll (requiredImports l) := by
  have himports : l.functions.filterMap (functionImport? l.name) =
      (submodules l).map aliasImport := by
    rw [submodules, List.map_filterMap]
    exact List.filterMap_congr fun f _ => functionImport?_eq l.name f
  rw [libraryImports, himports]
  rfl

/-! ## who decides -/

/-- What is required is the library itself and the alias of each submodule that is used. -/
theorem mem_requiredImports {i : Import} :
    i ∈ requiredImports l ↔ i = .plain l.name ∨ ∃ m ∈ submodules l, i = aliasImport m := by
  rw [requiredImports, List.mem_cons, List.mem_map]
  simp only [eq_comm]

/-- The alias imports stand in the order of their submodules. -/
theorem idxOf_map_aliasImport (m : String) (ms : List String) :
    (ms.map aliasImport).idxOf (aliasImport m) = ms.idxOf m := by
  induction ms with
  | nil => rfl
  | cons n ms ih =>
      rw [List.map_cons]
      by_cases hn : n = m
      · rw [hn, List.idxOf_cons_self, List.idxOf_cons_self]
      · rw [List.idxOf_cons_ne _ hn, List.idxOf_cons_ne _ fun e => hn (aliasImport_injective e), ih]

/-- All of them come behind the import of the library. -/
theorem idxOf_aliasImport (l : Library) (m : String) :
    (requiredImports l).idxOf (aliasImport m) = (submodules l).idxOf m + 1 := by
  have hne : Import.plain l.name ≠ aliasImport m := nofun
  rw [requiredImports, List.idxOf_cons_ne _ hne, idxOf_map_aliasImport]

/-- The library is imported first. -/
theorem idxOf_plain (l : Library) : (requiredImports l).idxOf (.plain l.name) = 0 :=
  List.idxOf_cons_self

/-- Only its own import binds an alias to the module. -/
theorem eq_aliasImport_of_bound {i : Import} {m : String} (hi : i ∈ requiredImports l)
    (hname : i.boundName = HostName.moduleAlias m) (hmodule : i.boundModule = m) :
    i = aliasImport m := by
  cases mem_requiredImports.mp hi with
  | inl hplain =>
      subst hplain
      exact absurd (hname.symm.trans hmodule) (HostName.moduleAlias_ne m)
  | inr halias =>
      obtain ⟨m', _, rfl⟩ := halias
      exact congrArg aliasImport hmodule

/-- Only its own import binds the root of the library to it. -/
theorem eq_plain_of_bound {i : Import} (hi : i ∈ requiredImports l)
    (hname : i.boundName = rootOf l.name) (hmodule : i.boundModule = rootOf l.name) :
    i = .plain l.name := by
  cases mem_requiredImports.mp hi with
  | inl hplain => exact hplain
  | inr halias =>
      obtain ⟨m, _, rfl⟩ := halias
      change HostName.moduleAlias m = _ at hname
      change m = _ at hmodule
      exact absurd (hname.trans hmodule.symm) (HostName.moduleAlias_ne m)

/-- An alias stands for a submodule exactly if no submodule with the same alias
is imported after it. -/
theorem after_libraryImports_alias {m : String} (hm : m ∈ submodules l) :
    Environment.after (libraryImports l) (HostName.moduleAlias m) = some m ↔
      ∀ m' ∈ submodules l, HostName.sanitize m' = HostName.sanitize m →
        (submodules l).idxOf m' ≤ (submodules l).idxOf m := by
  rw [libraryImports_eq, after_requireAll_eq_some_iff]
  constructor
  · rintro ⟨i, ⟨hi, hname, hlast⟩, hmodule⟩ m' hm' hsame
    rw [eq_aliasImport_of_bound hi hname hmodule] at hlast
    have hle := hlast (aliasImport m') (mem_requiredImports.mpr (.inr ⟨m', hm', rfl⟩))
      (HostName.moduleAlias_eq_iff.mpr hsame)
    rw [idxOf_aliasImport, idxOf_aliasImport] at hle
    exact Nat.le_of_succ_le_succ hle
  · intro hlast
    refine ⟨aliasImport m, ⟨mem_requiredImports.mpr (.inr ⟨m, hm, rfl⟩), rfl, ?_⟩, rfl⟩
    intro j hj hname
    cases mem_requiredImports.mp hj with
    | inl hplain =>
        rw [hplain, idxOf_plain]
        exact Nat.zero_le _
    | inr halias =>
        obtain ⟨m', hm', rfl⟩ := halias
        rw [idxOf_aliasImport, idxOf_aliasImport]
        exact Nat.succ_le_succ (hlast m' hm' (HostName.moduleAlias_eq_iff.mp hname))

/-- The root of the library stands for it exactly if no submodule has the root
as its alias. -/
theorem after_libraryImports_root (l : Library) :
    Environment.after (libraryImports l) (rootOf l.name) = some (rootOf l.name) ↔
      ∀ m ∈ submodules l, HostName.moduleAlias m ≠ rootOf l.name := by
  rw [libraryImports_eq, after_requireAll_eq_some_iff]
  constructor
  · rintro ⟨i, ⟨hi, hname, hlast⟩, hmodule⟩ m hm hsame
    rw [eq_plain_of_bound hi hname hmodule] at hlast
    have hle := hlast (aliasImport m) (mem_requiredImports.mpr (.inr ⟨m, hm, rfl⟩)) hsame
    rw [idxOf_aliasImport, idxOf_plain] at hle
    exact absurd hle (Nat.not_succ_le_zero _)
  · intro hfree
    refine ⟨.plain l.name, ⟨mem_requiredImports.mpr (.inl rfl), rfl, ?_⟩, rfl⟩
    intro j hj hname
    cases mem_requiredImports.mp hj with
    | inl hplain => rw [hplain]
    | inr halias =>
        obtain ⟨m, hm, rfl⟩ := halias
        exact absurd hname (hfree m hm)

/-! ## calls -/

/-- A call from the wrapper of a library finds its module: the alias stands for
the submodule, or the root of the module for the root package of the library. -/
def Reaches (env : Environment) (library : String) : Target → Prop
  | .library modulePath _ => env (rootOf modulePath) = some (rootOf library)
  | .aliased aliasName modulePath _ => env aliasName = some modulePath
  | .receiver _ => True

/-- No import of a submodule takes the name that the call depends on. -/
def Unshadowed (l : Library) : Target → Prop
  | .library .. => ∀ m ∈ submodules l, HostName.moduleAlias m ≠ rootOf l.name
  | .aliased _ modulePath _ => ∀ m ∈ submodules l,
      HostName.sanitize m = HostName.sanitize modulePath →
        (submodules l).idxOf m ≤ (submodules l).idxOf modulePath
  | .receiver _ => True

/-- The target of a function with a host name. -/
theorem reaches_functionTarget_iff {f : Callable} (hf : f ∈ l.functions)
    (hhost : (HostName.forBinding? f.name).isSome) :
    Reaches (.after (libraryImports l)) l.name (functionTarget l.name f) ↔
      Unshadowed l (functionTarget l.name f) := by
  cases hs : submodule? l.name f with
  | none =>
      rw [functionTarget_of_submodule?_eq_none hhost hs]
      exact after_libraryImports_root l
  | some m =>
      rw [functionTarget_of_submodule? hs]
      exact after_libraryImports_alias (List.mem_filterMap.mpr ⟨f, hf, hs⟩)

/-- The bindings of the wrapper of a library forward to functions of the library
that have a host name. -/
theorem target_of_mem_bindings {b : Binding} (hb : b ∈ (libraryWrapper o l).1.bindings) :
    ∃ f ∈ l.functions, (HostName.forBinding? f.name).isSome ∧
      b.target = functionTarget l.name f := by
  have hw := mem_wrappers_synthesize.mpr (Or.inl (Eq.refl (libraryWrapper o l).1))
  rw [bindings_of_mem_wrappers hw] at hb
  obtain ⟨c, hc, rfl⟩ := List.mem_map.mp hb
  obtain ⟨hf, hhost⟩ := callable_of_mem_candidates (mem_of_mem_firstOccurrences hc)
  exact ⟨c.callable, hf, hhost, rfl⟩

/-- **Where calls go astray**: a binding of the wrapper of a library reaches the
module of its target exactly if no import of a submodule shadows it. -/
theorem reaches_iff_unshadowed (o : SynthesisOptions) (l : Library) :
    ∃ w, (synthesize o l).libraryWrapper? = some w ∧ ∀ b ∈ w.bindings,
      (Reaches (.after w.imports) l.name b.target ↔ Unshadowed l b.target) := by
  refine ⟨(libraryWrapper o l).1, rfl, fun b hb => ?_⟩
  obtain ⟨f, hf, hhost, htarget⟩ := target_of_mem_bindings hb
  rw [htarget]
  exact reaches_functionTarget_iff hf hhost

/-- A library with functions of two modules that have the same alias. -/
def confusedModules : Library :=
  ⟨"lib", [⟨"f", [], 0, none, "a.b"⟩, ⟨"g", [], 0, none, "a_b"⟩], []⟩

/-- The first function of this library is looked up in the module of the second. -/
theorem not_reaches_confusedModules :
    ∃ w b, (synthesize {} confusedModules).libraryWrapper? = some w ∧ b ∈ w.bindings ∧
      b.target = .aliased "_a_b" "a.b" "f" ∧ Environment.after w.imports "_a_b" = some "a_b" ∧
      ¬Reaches (.after w.imports) "lib" b.target := by
  have hbindings : (libraryWrapper {} confusedModules).1.bindings.map Binding.target =
      [.aliased "_a_b" "a.b" "f", .aliased "_a_b" "a_b" "g"] := by decide +kernel
  have himports : Environment.after (libraryWrapper {} confusedModules).1.imports "_a_b" =
      some "a_b" := by decide +kernel
  have hfirst : Target.aliased "_a_b" "a.b" "f" ∈
      (libraryWrapper {} confusedModules).1.bindings.map Binding.target := by
    rw [hbindings]
    exact List.mem_cons_self
  obtain ⟨b, hb, htarget⟩ := List.mem_map.mp hfirst
  refine ⟨(libraryWrapper {} confusedModules).1, b, rfl, hb, htarget, himports, ?_⟩
  rw [htarget, Reaches, himports]
  decide

end

end BindingSynthesis
