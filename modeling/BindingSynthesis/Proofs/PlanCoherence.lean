import BindingSynthesis.Proofs.ImportEnvironment

/-!
# BindingSynthesis.Proofs.PlanCoherence

What the records of a plan say about each other.

A plan says most things in two places, and whoever reads it trusts the place that
is at hand:

```
ownerKind, ownerName       the wrapper has them as well
target                     a method of the object exactly in a wrapper of a class
requiresAlias              the target goes through an alias
alias of the target        made from the module, and bound by an import of the wrapper
name                       the host name of the callable that is called
```

1. Requiring imports one by one leaves each of them once, the first one in front
   (`nodup_requireAll`, `requireAll_cons`).
2. A candidate has the host name of its callable, or that name with the ending
   for a map of keywords (`host_of_mem_candidates`).
3. So all records of a plan agree (`isCoherent_of_mem_wrappers`).
-/

namespace BindingSynthesis

/-! ## coherent records -/

/-- What a binding says agrees with itself and with the wrapper that it belongs to,
which stands for the callables of a library. -/
structure Binding.IsCoherent (o : SynthesisOptions) (library : String) (callables : List Callable)
    (w : Wrapper) (b : Binding) : Prop where
  ownerKind : b.ownerKind = w.kind
  ownerName : b.ownerName = w.name
  receiver_iff : (∃ method, b.target = .receiver method) ↔ w.kind = .classLevel
  kind_of_keywordTail : b.keywordTail = true → w.kind = .classLevel
  requiresAlias_iff : b.requiresAlias = true ↔
    ∃ aliasName modulePath callable, b.target = .aliased aliasName modulePath callable
  aliased : ∀ aliasName modulePath callable, b.target = .aliased aliasName modulePath callable →
    aliasName = HostName.moduleAlias modulePath ∧ modulePath ≠ "" ∧ modulePath ≠ library ∧
      .aliased aliasName modulePath ∈ w.imports
  library : ∀ modulePath callable, b.target = .library modulePath callable → modulePath = library
  host : ∃ c ∈ callables, c.name = b.target.callable ∧
    ∃ host, HostName.forBinding? c.name = some host ∧
      b.name = if b.keywordTail then host ++ o.kwargsSuffix else host

/-- The imports of a wrapper are those of its level, and each of its bindings is
coherent. -/
structure Wrapper.IsCoherent (o : SynthesisOptions) (l : Library) (w : Wrapper) : Prop where
  nodup_imports : w.imports.Nodup
  imports_eq_cons : ∃ more, w.imports = .plain l.name :: more
  imports_of_class : w.kind = .classLevel → w.imports = [.plain l.name]
  bindings : ∀ b ∈ w.bindings, b.IsCoherent o l.name (Synthesis.wrappedCallables o l w) w

/-! ## required imports -/

theorem nodup_requireAll (is : List Import) : (requireAll is).Nodup := by
  induction is using List.reverseRecOn with
  | nil => exact List.nodup_nil
  | append_singleton is j ih =>
      rw [requireAll_append_singleton, Import.require]
      split
      · exact ih
      · next hj =>
          refine List.nodup_append.mpr ⟨ih, by simp, fun i hi last hlast => ?_⟩
          rw [List.mem_singleton.mp hlast]
          exact fun he => hj (he ▸ hi)

/-- The import that is required first stays in front. -/
theorem requireAll_cons (i : Import) (is : List Import) :
    ∃ more, requireAll (i :: is) = i :: more := by
  induction is using List.reverseRecOn with
  | nil => exact ⟨[], rfl⟩
  | append_singleton is j ih =>
      obtain ⟨more, hmore⟩ := ih
      rw [← List.cons_append, requireAll_append_singleton, hmore, Import.require]
      split
      · exact ⟨more, rfl⟩
      · exact ⟨more ++ [j], rfl⟩

namespace Synthesis

variable {o : SynthesisOptions} {l : Library} {library : String} {kind : WrapperKind}

/-- The submodule of a target is imported under its alias. -/
theorem aliased_mem_libraryImports {f : Callable} (hf : f ∈ l.functions)
    (hhost : (HostName.forBinding? f.name).isSome) {aliasName modulePath callable : String}
    (htarget : functionTarget l.name f = .aliased aliasName modulePath callable) :
    .aliased aliasName modulePath ∈ libraryImports l := by
  cases hs : submodule? l.name f with
  | none =>
      rw [functionTarget_of_submodule?_eq_none hhost hs] at htarget
      cases htarget
  | some m =>
      rw [functionTarget_of_submodule? hs] at htarget
      obtain ⟨rfl, rfl, -⟩ := Target.aliased.inj htarget
      rw [libraryImports_eq, mem_requireAll]
      exact mem_requiredImports.mpr (.inr ⟨m, List.mem_filterMap.mpr ⟨f, hf, hs⟩, rfl⟩)

/-! ## names of candidates -/

/-- A candidate has the host name of its callable as it is, or for a method with a
map of keywords the name with an ending. -/
theorem host_of_mem_candidates {callables : List Callable} {c : Candidate}
    (h : c ∈ candidates o kind callables) :
    (c.signature.keywordTail = true → kind = .classLevel) ∧
      ∃ host, HostName.forBinding? c.callable.name = some host ∧
        c.signature.name = if c.signature.keywordTail then host ++ o.kwargsSuffix else host := by
  obtain ⟨f, -, hc⟩ := List.mem_flatMap.mp h
  cases kind with
  | libraryLevel =>
      change c ∈ functionCandidates f at hc
      rw [functionCandidates] at hc
      cases hhost : HostName.forBinding? f.name with
      | none => simp [hhost] at hc
      | some host =>
          rw [hhost] at hc
          obtain ⟨n, -, rfl⟩ := List.mem_map.mp hc
          exact ⟨fun htail => absurd htail Bool.false_ne_true, host, hhost, rfl⟩
  | classLevel =>
      refine ⟨fun _ => rfl, ?_⟩
      change c ∈ methodCandidates o f at hc
      rw [methodCandidates] at hc
      split at hc
      · cases hc
      cases hhost : HostName.forBinding? f.name with
      | none => simp [hhost] at hc
      | some host =>
          rw [hhost] at hc
          obtain hplain | htail := List.mem_append.mp hc
          · obtain ⟨n, -, rfl⟩ := List.mem_map.mp hplain
            exact ⟨host, hhost, rfl⟩
          · split at htail
            · cases List.mem_singleton.mp htail
              exact ⟨host, hhost, rfl⟩
            · cases htail

/-- The bindings of a wrapper come from candidates of its callables. -/
theorem candidate_of_mem_bindings {w : Wrapper} (hw : w ∈ (synthesize o l).wrappers) {b : Binding}
    (hb : b ∈ w.bindings) :
    ∃ c ∈ candidates o w.kind (wrappedCallables o l w), b = c.binding o l.name w.kind w.name := by
  rw [bindings_of_mem_wrappers hw] at hb
  obtain ⟨c, hc, rfl⟩ := List.mem_map.mp hb
  exact ⟨c, mem_of_mem_firstOccurrences hc, rfl⟩

/-- A binding has a host name, or one with the ending. -/
theorem host_of_mem_bindings {w : Wrapper} (hw : w ∈ (synthesize o l).wrappers) {b : Binding}
    (hb : b ∈ w.bindings) :
    ∃ name host, HostName.forBinding? name = some host ∧
      b.name = if b.keywordTail then host ++ o.kwargsSuffix else host := by
  obtain ⟨c, hc, rfl⟩ := candidate_of_mem_bindings hw hb
  obtain ⟨-, host, hhost, hname⟩ := host_of_mem_candidates hc
  exact ⟨c.callable.name, host, hhost, hname⟩

/-! ## targets -/

theorem callable_targetIn (library : String) (kind : WrapperKind) (c : Callable) :
    (targetIn library kind c).callable = c.name := by
  cases kind with
  | libraryLevel =>
      rw [targetIn, functionTarget]
      split <;> rfl
  | classLevel => rfl

theorem receiver_targetIn_iff (library : String) (kind : WrapperKind) (c : Callable) :
    (∃ method, targetIn library kind c = .receiver method) ↔ kind = .classLevel := by
  cases kind with
  | libraryLevel =>
      rw [targetIn, functionTarget]
      split <;> simp
  | classLevel => exact ⟨fun _ => rfl, fun _ => ⟨_, rfl⟩⟩

theorem aliased_targetIn {c : Callable} {aliasName modulePath callable : String}
    (h : targetIn library kind c = .aliased aliasName modulePath callable) :
    kind = .libraryLevel ∧ aliasName = HostName.moduleAlias modulePath ∧ modulePath ≠ "" ∧
      modulePath ≠ library := by
  cases kind with
  | libraryLevel =>
      rw [targetIn, functionTarget] at h
      split at h
      · cases h
      · next hmodule =>
          cases h
          exact ⟨rfl, rfl, not_or.mp hmodule⟩
  | classLevel => cases h

theorem library_targetIn {c : Callable} {modulePath callable : String}
    (h : targetIn library kind c = .library modulePath callable) : modulePath = library := by
  cases kind with
  | libraryLevel =>
      rw [targetIn, functionTarget] at h
      split at h <;> cases h
      rfl
  | classLevel => cases h

theorem isSome_aliasName?_iff (t : Target) :
    t.aliasName?.isSome = true ↔
      ∃ aliasName modulePath callable, t = .aliased aliasName modulePath callable := by
  cases t <;> simp [Target.aliasName?]

/-! ## wrappers -/

/-- The imports of a wrapper start with its library and repeat nothing; a wrapper of
a class needs no other. -/
theorem imports_of_mem_wrappers {w : Wrapper} (hw : w ∈ (synthesize o l).wrappers) :
    w.imports.Nodup ∧ (∃ more, w.imports = .plain l.name :: more) ∧
      (w.kind = .classLevel → w.imports = [.plain l.name]) := by
  obtain rfl | ⟨c, -, rfl⟩ := mem_wrappers_synthesize.mp hw
  · have himports : (libraryWrapper o l).1.imports = requireAll (requiredImports l) :=
      libraryImports_eq l
    rw [himports]
    exact ⟨nodup_requireAll _, requireAll_cons _ _, (nomatch ·)⟩
  · exact ⟨List.pairwise_singleton _ _, ⟨[], rfl⟩, fun _ => rfl⟩

/-- The imports of a wrapper hold the submodules that its functions are called in. -/
theorem aliased_mem_imports {w : Wrapper} (hw : w ∈ (synthesize o l).wrappers) {c : Callable}
    (hc : c ∈ wrappedCallables o l w) (hhost : (HostName.forBinding? c.name).isSome)
    {aliasName modulePath callable : String}
    (htarget : targetIn l.name w.kind c = .aliased aliasName modulePath callable) :
    .aliased aliasName modulePath ∈ w.imports := by
  obtain ⟨hkind, -⟩ := aliased_targetIn htarget
  obtain rfl | ⟨d, -, rfl⟩ := mem_wrappers_synthesize.mp hw
  · exact aliased_mem_libraryImports hc hhost htarget
  · cases hkind

/-- **The records of a plan agree**: each binding with the wrapper that it belongs
to, with the imports of that wrapper, and with a callable that the wrapper stands
for. -/
theorem isCoherent_of_mem_wrappers (o : SynthesisOptions) (l : Library) {w : Wrapper}
    (hw : w ∈ (synthesize o l).wrappers) : w.IsCoherent o l := by
  obtain ⟨hnodup, hfirst, hclass⟩ := imports_of_mem_wrappers hw
  refine ⟨hnodup, hfirst, hclass, fun b hb => ?_⟩
  obtain ⟨c, hc, rfl⟩ := candidate_of_mem_bindings hw hb
  obtain ⟨hcallable, hsome⟩ := callable_of_mem_candidates hc
  obtain ⟨htail, host, hhost, hname⟩ := host_of_mem_candidates hc
  exact {
    ownerKind := rfl
    ownerName := rfl
    receiver_iff := receiver_targetIn_iff l.name w.kind c.callable
    kind_of_keywordTail := htail
    requiresAlias_iff := isSome_aliasName?_iff _
    aliased := fun aliasName modulePath callable htarget => by
      obtain ⟨-, halias, hmodule⟩ := aliased_targetIn htarget
      exact ⟨halias, hmodule.1, hmodule.2, aliased_mem_imports hw hcallable hsome htarget⟩
    library := fun _ _ htarget => library_targetIn htarget
    host := ⟨c.callable, hcallable, (callable_targetIn l.name w.kind c.callable).symm, host, hhost,
      hname⟩ }

/-- A class with an optional parameter. -/
def tableClass : ForeignClass :=
  ⟨"Table", "lib.core", none, [⟨"head", ["self", "n"], 1, none, "lib.core"⟩]⟩

/-- A library with functions of its own and of a submodule, and a class. -/
def layeredLibrary : Library :=
  ⟨"lib", [⟨"load", ["path"], 0, none, "lib.io"⟩, ⟨"wait", [], 0, none, "lib"⟩], [tableClass]⟩

/-- The wrapper of this library calls through an alias, and that of its class has an
overload with a map of keywords. -/
theorem isCoherent_layeredLibrary :
    ((libraryWrapper {} layeredLibrary).1 ∈ (synthesize {} layeredLibrary).wrappers ∧
      (libraryWrapper {} layeredLibrary).1.IsCoherent {} layeredLibrary ∧
      (libraryWrapper {} layeredLibrary).1.imports = [.plain "lib", .aliased "_lib_io" "lib.io"] ∧
      (libraryWrapper {} layeredLibrary).1.bindings.map (fun b => (b.name, b.target)) =
        [("load", .aliased "_lib_io" "lib.io" "load"), ("load", .aliased "_lib_io" "lib.io" "load"),
          ("wait_py", .library "lib" "wait")]) ∧
    (classWrapper {} "lib" tableClass).1 ∈ (synthesize {} layeredLibrary).wrappers ∧
      (classWrapper {} "lib" tableClass).1.IsCoherent {} layeredLibrary ∧
      (classWrapper {} "lib" tableClass).1.imports = [.plain "lib"] ∧
      (classWrapper {} "lib" tableClass).1.bindings.map (fun b => (b.name, b.target)) =
        [("head", .receiver "head"), ("head", .receiver "head"),
          ("headWithKwargs", .receiver "head")] := by
  have hlibrary : (libraryWrapper {} layeredLibrary).1 ∈ (synthesize {} layeredLibrary).wrappers :=
    mem_wrappers_synthesize.mpr (.inl rfl)
  have hclass : (classWrapper {} "lib" tableClass).1 ∈ (synthesize {} layeredLibrary).wrappers :=
    mem_wrappers_synthesize.mpr (.inr ⟨tableClass, by decide +kernel, rfl⟩)
  exact ⟨⟨hlibrary, isCoherent_of_mem_wrappers {} layeredLibrary hlibrary, by decide +kernel,
    by decide +kernel⟩, hclass, isCoherent_of_mem_wrappers {} layeredLibrary hclass,
    by decide +kernel, by decide +kernel⟩

end Synthesis

end BindingSynthesis
