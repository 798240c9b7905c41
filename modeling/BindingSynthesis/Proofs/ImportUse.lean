import BindingSynthesis.Proofs.ImportEnvironment

/-!
# BindingSynthesis.Proofs.ImportUse

Which imports of the wrapper of a library its bindings use.

All imports of a wrapper run before each of its calls, so one that no binding needs can
only do harm.  A submodule is imported for the sake of a function, and a function leaves
no binding if all of its overloads are taken:

```
imported   the library, and the submodule of each function with a host name
used       the library, and the submodule of each function that leaves a binding
```

1. Distinct elements keep the order in which they came first
   (`idxOf_firstsAfter_lt_iff`), so two lists have the same distinct elements in the same
   order exactly if they agree on which there are and which of two comes first
   (`firstOccurrences_eq_iff`).
2. A function leaves a binding exactly if it has a host name and more parameters than each
   earlier function with that host name (`firstsAfter_functionCandidates_eq_nil_iff`).
3. Hence imports and bindings agree exactly if each submodule is called into, and
   submodules are called into in the order in which they are first asked for
   (`imports_eq_used_iff`).
-/

namespace BindingSynthesis

/-! ## distinct elements -/

section

variable {α κ : Type} [DecidableEq κ] {key : α → κ} {taken : List κ}

/-- Elements that come first in two lists: of the second, those whose key is in neither
what is taken nor the first list. -/
theorem firstsAfter_append (taken : List κ) (xs ys : List α) :
    firstsAfter key taken (xs ++ ys) =
      firstsAfter key taken xs ++ firstsAfter key (taken ++ xs.map key) ys := by
  induction xs generalizing taken with
  | nil => simp
  | cons x xs ih =>
      rw [List.cons_append]
      by_cases hx : key x ∈ taken
      · rw [firstsAfter_cons_of_mem hx, firstsAfter_cons_of_mem hx, ih]
        congr 1
        apply firstsAfter_congr
        intro k
        by_cases hk : k = key x <;> simp [hk, hx]
      · rw [firstsAfter_cons_of_not_mem hx, firstsAfter_cons_of_not_mem hx, ih, List.cons_append]
        congr 2
        apply firstsAfter_congr
        intro k
        simp [or_left_comm]

end

section

variable {α κ : Type} [DecidableEq α] {taken xs ys : List α} {a b x : α}

theorem firstOccurrences_append_singleton (xs : List α) (x : α) :
    firstOccurrences id (xs ++ [x]) =
      if x ∈ xs then firstOccurrences id xs else firstOccurrences id xs ++ [x] := by
  rw [← firstsAfter_eq_firstOccurrences, ← firstsAfter_eq_firstOccurrences, firstsAfter_append]
  by_cases hx : x ∈ xs
  · rw [firstsAfter_cons_of_mem (by simpa using hx)]
    simp [hx]
  · rw [firstsAfter_cons_of_not_mem (by simpa using hx)]
    simp [hx]

theorem mem_firstOccurrences_id : x ∈ firstOccurrences id xs ↔ x ∈ xs := by
  have h := @mem_map_firstsAfter α α _ id [] x xs
  simpa [firstsAfter_eq_firstOccurrences] using h

theorem nodup_firstOccurrences_id (xs : List α) : (firstOccurrences id xs).Nodup := by
  have h := @nodup_map_firstsAfter α α _ id [] xs
  rwa [List.map_id, firstsAfter_eq_firstOccurrences] at h

/-- An element that is repeated at once counts once. -/
theorem firstsAfter_replicate (taken : List α) (n : Nat) (x : α) (xs : List α) :
    firstsAfter id taken (List.replicate (n + 1) x ++ xs) = firstsAfter id taken (x :: xs) := by
  induction n with
  | zero => rfl
  | succ n ih =>
      rw [← ih]
      simp only [List.replicate_succ, List.cons_append]
      by_cases hx : id x ∈ taken
      · rw [firstsAfter_cons_of_mem hx]
      · have hnow : id x ∈ id x :: taken := List.mem_cons_self
        rw [firstsAfter_cons_of_not_mem hx, firstsAfter_cons_of_not_mem hx,
          firstsAfter_cons_of_mem hnow]

/-- Distinct elements may be renamed before or after they are picked. -/
theorem firstOccurrences_map [DecidableEq κ] {f : α → κ} (hf : Function.Injective f)
    (xs : List α) : firstOccurrences id (xs.map f) = (firstOccurrences id xs).map f := by
  have hkeys : ∀ taken : List α, firstsAfter f (taken.map f) xs = firstsAfter id taken xs := by
    induction xs with
    | nil => simp
    | cons x xs ih =>
        intro taken
        by_cases hx : id x ∈ taken
        · have hfx : f x ∈ taken.map f := List.mem_map_of_mem hx
          rw [firstsAfter_cons_of_mem hfx, firstsAfter_cons_of_mem hx, ih]
        · have hfx : f x ∉ taken.map f := by rwa [List.mem_map_of_injective hf]
          rw [firstsAfter_cons_of_not_mem hfx, firstsAfter_cons_of_not_mem hx, ← List.map_cons, ih]
          rfl
  rw [← firstsAfter_eq_firstOccurrences, firstsAfter_map, ← firstsAfter_eq_firstOccurrences]
  exact congrArg (List.map f) (hkeys [])

/-- **Distinct elements keep the order** in which they came first. -/
theorem idxOf_firstsAfter_lt_iff (ha : a ∉ taken) (hb : b ∉ taken) (xs : List α) :
    (firstsAfter id taken xs).idxOf a < (firstsAfter id taken xs).idxOf b ↔
      xs.idxOf a < xs.idxOf b := by
  induction xs generalizing taken with
  | nil => simp
  | cons x xs ih =>
      by_cases hx : id x ∈ taken
      · have hxa : x ≠ a := fun h => ha (h ▸ hx)
        have hxb : x ≠ b := fun h => hb (h ▸ hx)
        rw [firstsAfter_cons_of_mem hx, ih ha hb, List.idxOf_cons_ne _ hxa,
          List.idxOf_cons_ne _ hxb]
        omega
      · rw [firstsAfter_cons_of_not_mem hx]
        by_cases hxb : x = b
        · simp [hxb]
        · rw [List.idxOf_cons_ne _ hxb, List.idxOf_cons_ne _ hxb]
          by_cases hxa : x = a
          · simp [hxa]
          · have h := ih (by simp [Ne.symm hxa, ha] : a ∉ id x :: taken)
              (by simp [Ne.symm hxb, hb])
            rw [List.idxOf_cons_ne _ hxa, List.idxOf_cons_ne _ hxa]
            omega

/-- **Two lists have the same distinct elements in the same order** exactly if they have
the same elements and agree on which of two comes first. -/
theorem firstOccurrences_eq_iff :
    firstOccurrences id xs = firstOccurrences id ys ↔
      (∀ a, a ∈ xs ↔ a ∈ ys) ∧
        ∀ a ∈ xs, ∀ b ∈ xs, xs.idxOf a < xs.idxOf b → ys.idxOf a < ys.idxOf b := by
  have horder (zs : List α) (a b : α) : (firstOccurrences id zs).idxOf a <
      (firstOccurrences id zs).idxOf b ↔ zs.idxOf a < zs.idxOf b := by
    rw [← firstsAfter_eq_firstOccurrences]
    exact idxOf_firstsAfter_lt_iff (by simp) (by simp) zs
  constructor
  · intro h
    constructor
    · intro a
      rw [← mem_firstOccurrences_id, h, mem_firstOccurrences_id]
    · intro a _ b _ hab
      rwa [← horder ys, ← h, horder xs]
  · rintro ⟨hmem, hbefore⟩
    -- Both are sorted by the place in the second list, and distinct places are comparable.
    have hsorted {zs : List α} (h : ∀ a ∈ zs, ∀ b ∈ zs, zs.idxOf a < zs.idxOf b →
        ys.idxOf a < ys.idxOf b) :
        (firstOccurrences id zs).Pairwise fun a b => ys.idxOf a < ys.idxOf b := by
      rw [List.pairwise_iff_getElem]
      intro i j hi hj hij
      apply h _ (mem_firstOccurrences_id.mp (List.getElem_mem hi)) _
        (mem_firstOccurrences_id.mp (List.getElem_mem hj))
      rw [← horder, (nodup_firstOccurrences_id zs).idxOf_getElem,
        (nodup_firstOccurrences_id zs).idxOf_getElem]
      exact hij
    have hperm : (firstOccurrences id xs).Perm (firstOccurrences id ys) := by
      rw [List.perm_ext_iff_of_nodup (nodup_firstOccurrences_id xs) (nodup_firstOccurrences_id ys)]
      intro a
      rw [mem_firstOccurrences_id, hmem, mem_firstOccurrences_id]
    exact hperm.eq_of_pairwise (fun a b _ _ hab hba => by omega) (hsorted hbefore)
      (hsorted fun _ _ _ _ h => h)

end

/-! ## imports that are used -/

/-- The import that a call needs besides that of the library. -/
def Import.ofTarget? : Target → Option Import
  | .aliased aliasName modulePath _ => some (.aliased aliasName modulePath)
  | _ => none

/-- The imports that bindings need besides that of the library, each once, in the order of
the first binding that needs it. -/
def usedImports (bs : List Binding) : List Import :=
  firstOccurrences id (bs.filterMap fun b => Import.ofTarget? b.target)

/-- Behind other functions of a library, a function leaves a binding: it has a host name,
and more parameters than each of them with that host name. -/
def LeavesBinding (before : List Callable) (f : Callable) : Prop :=
  (HostName.forBinding? f.name).isSome ∧ ∀ g ∈ before,
    HostName.forBinding? g.name = HostName.forBinding? f.name → g.params.length < f.params.length

instance (before : List Callable) : DecidablePred (LeavesBinding before) := fun _ =>
  inferInstanceAs (Decidable (_ ∧ ∀ g ∈ before, _ → _))

/-- The functions that leave a binding, if they stand behind others. -/
def contributors : List Callable → List Callable → List Callable
  | _, [] => []
  | before, f :: more =>
    if LeavesBinding before f then f :: contributors (before ++ [f]) more
    else contributors (before ++ [f]) more

/-- The submodules that bindings of a library call into, in the order of the functions that
leave these bindings. -/
def calledSubmodules (l : Library) : List String :=
  (contributors [] l.functions).filterMap (submodule? l.name)

namespace Synthesis

variable {o : SynthesisOptions} {l : Library} {library : String} {before : List Callable}
  {taken : List Signature}

/-! ## what is imported -/

/-- The library is imported first, then each submodule once. -/
theorem libraryImports_eq_distinct (l : Library) :
    libraryImports l =
      .plain l.name :: (firstOccurrences id (submodules l)).map aliasImport := by
  rw [libraryImports_eq, requiredImports]
  induction submodules l using List.reverseRecOn with
  | nil => rfl
  | append_singleton ms m ih =>
      rw [List.map_append, List.map_singleton, ← List.cons_append, requireAll_append_singleton,
        ih, firstOccurrences_append_singleton, Import.require]
      have hne : aliasImport m ≠ .plain l.name := by simp [aliasImport]
      have hmem : aliasImport m ∈
          Import.plain l.name :: (firstOccurrences id ms).map aliasImport ↔ m ∈ ms := by
        rw [List.mem_cons, List.mem_map_of_injective aliasImport_injective,
          mem_firstOccurrences_id]
        exact or_iff_right hne
      simp only [hmem]
      split <;> simp

/-! ## what is called -/

theorem mem_signatures_functionCandidates {f : Callable} {s : Signature} :
    s ∈ (functionCandidates f).map Candidate.signature ↔
      ∃ host, HostName.forBinding? f.name = some host ∧ ∃ n ≤ f.params.length, s = ⟨host, n, false⟩ := by
  rw [functionCandidates]
  cases HostName.forBinding? f.name with
  | none => simp
  | some host =>
      simp only [List.map_map, List.mem_map, List.Ico.mem, Nat.zero_le, true_and,
        Nat.lt_succ_iff, Function.comp_apply, Option.some.injEq, exists_eq_left', eq_comm]

/-- **A function leaves no binding** exactly if it has no host name, or an earlier function
has the same host name and at least as many parameters. -/
theorem firstsAfter_functionCandidates_eq_nil_iff
    (htaken : ∀ s, s ∈ taken ↔ s ∈ (before.flatMap functionCandidates).map Candidate.signature)
    (f : Callable) :
    firstsAfter Candidate.signature taken (functionCandidates f) = [] ↔
      ¬LeavesBinding before f := by
  have hnil : firstsAfter Candidate.signature taken (functionCandidates f) = [] ↔
      ∀ s ∈ (functionCandidates f).map Candidate.signature, s ∈ taken := by
    rw [← List.map_eq_nil_iff (f := Candidate.signature), List.eq_nil_iff_forall_not_mem]
    simp only [mem_map_firstsAfter, not_and, not_not]
  have hbefore (host : String) (n : Nat) : ⟨host, n, false⟩ ∈ taken ↔
      ∃ g ∈ before, HostName.forBinding? g.name = some host ∧ n ≤ g.params.length := by
    rw [htaken, List.map_flatMap, List.mem_flatMap]
    simp only [plain_mem_functionCandidates]
  rw [hnil, LeavesBinding]
  cases hhost : HostName.forBinding? f.name with
  | none => simp [functionCandidates, hhost]
  | some host =>
      -- The overload with all parameters is the last one to be taken.
      constructor
      · intro hall hleaves
        obtain ⟨g, hg, hsame, hlength⟩ := (hbefore host f.params.length).mp
          (hall _ (plain_mem_functionCandidates.mpr ⟨hhost, Nat.le_refl _⟩))
        have hfewer := hleaves.2 g hg hsame
        omega
      · intro hnone s hs
        obtain ⟨host', hhost', n, hn, rfl⟩ := mem_signatures_functionCandidates.mp hs
        obtain rfl : host = host' := Option.some.inj (hhost.symm.trans hhost')
        simp only [Option.isSome_some, true_and, not_forall, not_lt] at hnone
        obtain ⟨g, hg, hsame, hlength⟩ := hnone
        exact (hbefore host n).mpr ⟨g, hg, hsame, by omega⟩

/-- All that a function leaves calls into one submodule, so it counts once, if there is any. -/
theorem firstsAfter_submodules_append {fresh : List Candidate} {submodule : Option String}
    (h : ∀ c ∈ fresh, submodule? library c.callable = submodule) (seen rest : List String) :
    firstsAfter id seen ((fresh.filterMap fun c => submodule? library c.callable) ++ rest) =
      firstsAfter id seen ((if fresh = [] then [] else submodule.toList) ++ rest) := by
  rw [List.filterMap_congr h]
  cases submodule with
  | none =>
      have hdropped : fresh.filterMap (fun _ => (none : Option String)) = [] := by simp
      rw [hdropped, Option.toList_none, ite_self]
  | some m =>
      have hconst : fresh.filterMap (fun _ => some m) = List.replicate fresh.length m := by simp
      rw [hconst]
      cases fresh with
      | nil => rfl
      | cons c more =>
          rw [if_neg (List.cons_ne_nil c more), List.length_cons, firstsAfter_replicate]
          rfl

theorem submodules_contributors_cons (library : String) (before : List Callable) (f : Callable)
    (more : List Callable) :
    (contributors before (f :: more)).filterMap (submodule? library) =
      (if LeavesBinding before f then (submodule? library f).toList else []) ++
        (contributors (before ++ [f]) more).filterMap (submodule? library) := by
  rw [contributors]
  split
  · cases hf : submodule? library f <;> simp [hf]
  · rfl

/-- What is called into, function by function: the bindings that a function leaves call
into its submodule, and the functions that leave none do not count. -/
theorem firstsAfter_called (library : String) (fs before : List Callable)
    (taken : List Signature) (seen : List String)
    (htaken : ∀ s, s ∈ taken ↔ s ∈ (before.flatMap functionCandidates).map Candidate.signature) :
    firstsAfter id seen
        ((firstsAfter Candidate.signature taken (fs.flatMap functionCandidates)).filterMap
          fun c => submodule? library c.callable) =
      firstsAfter id seen ((contributors before fs).filterMap (submodule? library)) := by
  induction fs generalizing before taken seen with
  | nil => rfl
  | cons f more ih =>
      have htaken' : ∀ s, s ∈ taken ++ (functionCandidates f).map Candidate.signature ↔
          s ∈ ((before ++ [f]).flatMap functionCandidates).map Candidate.signature := by
        intro s
        simp [htaken]
      have hcallable : ∀ c ∈ firstsAfter Candidate.signature taken (functionCandidates f),
          submodule? library c.callable = submodule? library f := by
        intro c hc
        rw [(callable_of_mem_functionCandidates (mem_of_mem_firstsAfter hc)).1]
      have hleaves : (if firstsAfter Candidate.signature taken (functionCandidates f) = [] then []
          else (submodule? library f).toList) =
          if LeavesBinding before f then (submodule? library f).toList else [] := by
        simp only [firstsAfter_functionCandidates_eq_nil_iff htaken f, ite_not]
      rw [List.flatMap_cons, firstsAfter_append, List.filterMap_append,
        firstsAfter_submodules_append hcallable, hleaves, submodules_contributors_cons,
        firstsAfter_append, firstsAfter_append, ih (before ++ [f]) _ _ htaken']

/-- The bindings of the wrapper use the imports of the submodules that they call into. -/
theorem usedImports_libraryWrapper (o : SynthesisOptions) (l : Library) :
    usedImports (libraryWrapper o l).1.bindings =
      (firstOccurrences id (calledSubmodules l)).map aliasImport := by
  have hw := mem_wrappers_synthesize.mpr (Or.inl (Eq.refl (libraryWrapper o l).1))
  have hcalled : firstOccurrences id
      ((firstOccurrences Candidate.signature (l.functions.flatMap functionCandidates)).filterMap
        fun c => submodule? l.name c.callable) = firstOccurrences id (calledSubmodules l) := by
    rw [calledSubmodules, ← firstsAfter_eq_firstOccurrences, ← firstsAfter_eq_firstOccurrences,
      ← firstsAfter_eq_firstOccurrences]
    exact firstsAfter_called l.name l.functions [] [] [] (by simp)
  have htargets : ∀ c ∈ firstOccurrences Candidate.signature
      (l.functions.flatMap functionCandidates),
      Import.ofTarget? (functionTarget l.name c.callable) =
        (submodule? l.name c.callable).map aliasImport := by
    intro c hc
    obtain ⟨f, -, hcf⟩ := List.mem_flatMap.mp (mem_of_mem_firstOccurrences hc)
    obtain ⟨rfl, hhost⟩ := callable_of_mem_functionCandidates hcf
    cases hs : submodule? l.name c.callable with
    | none =>
        rw [functionTarget_of_submodule?_eq_none hhost hs]
        rfl
    | some m =>
        rw [functionTarget_of_submodule? hs]
        rfl
  rw [← hcalled, ← firstOccurrences_map aliasImport_injective, List.map_filterMap,
    ← List.filterMap_congr htargets, usedImports, bindings_of_mem_wrappers hw, List.filterMap_map]
  rfl

/-! ## when both agree -/

theorem mem_of_mem_contributors {f : Callable} {fs : List Callable}
    (h : f ∈ contributors before fs) : f ∈ fs := by
  induction fs generalizing before with
  | nil => exact h
  | cons g more ih =>
      rw [contributors] at h
      split at h
      · cases List.mem_cons.mp h with
        | inl he => simp [he]
        | inr hm => exact List.mem_cons_of_mem _ (ih hm)
      · exact List.mem_cons_of_mem _ (ih h)

theorem mem_submodules_of_mem_calledSubmodules {m : String} (h : m ∈ calledSubmodules l) :
    m ∈ submodules l := by
  obtain ⟨f, hf, hm⟩ := List.mem_filterMap.mp h
  exact List.mem_filterMap.mpr ⟨f, mem_of_mem_contributors hf, hm⟩

/-- **When a wrapper imports exactly what its bindings use**: the wrapper of a library
imports the library, and then the submodules of its functions with host names; its
bindings use the submodules of the functions that leave a binding.  So the imports are
the library and exactly what is used, in the order of use, if and only if each submodule
is called into, and of two submodules that are asked for one after the other the first
one is also called into before the other. -/
theorem imports_eq_used_iff (o : SynthesisOptions) (l : Library) :
    ∃ w, (synthesize o l).libraryWrapper? = some w ∧
      w.imports = .plain l.name :: (firstOccurrences id (submodules l)).map aliasImport ∧
      usedImports w.bindings = (firstOccurrences id (calledSubmodules l)).map aliasImport ∧
      (w.imports = .plain l.name :: usedImports w.bindings ↔
        ∀ m ∈ submodules l, m ∈ calledSubmodules l ∧
          ∀ m' ∈ submodules l, (submodules l).idxOf m < (submodules l).idxOf m' →
            (calledSubmodules l).idxOf m < (calledSubmodules l).idxOf m') := by
  have himports : (libraryWrapper o l).1.imports =
      .plain l.name :: (firstOccurrences id (submodules l)).map aliasImport :=
    libraryImports_eq_distinct l
  have hused := usedImports_libraryWrapper o l
  refine ⟨(libraryWrapper o l).1, rfl, himports, hused, ?_⟩
  rw [himports, hused, List.cons_inj_right,
    (List.map_injective_iff.mpr aliasImport_injective).eq_iff, firstOccurrences_eq_iff]
  constructor
  · rintro ⟨hmem, hbefore⟩ m hm
    exact ⟨(hmem m).mp hm, hbefore m hm⟩
  · intro h
    exact ⟨fun m => ⟨fun hm => (h m hm).1, mem_submodules_of_mem_calledSubmodules⟩,
      fun m hm => (h m hm).2⟩

/-- A library that has one function twice, in different submodules. -/
def twinFunctions : Library :=
  ⟨"lib", [⟨"f", [], 0, none, "lib.a"⟩, ⟨"f", [], 0, none, "lib.b"⟩], []⟩

/-- The submodule of the second twin is imported, but no binding calls into it. -/
theorem imports_ne_used_twinFunctions :
    ∃ w, (synthesize {} twinFunctions).libraryWrapper? = some w ∧
      w.imports = [.plain "lib", .aliased "_lib_a" "lib.a", .aliased "_lib_b" "lib.b"] ∧
      w.bindings.map Binding.target = [.aliased "_lib_a" "lib.a" "f"] ∧
      w.imports ≠ .plain "lib" :: usedImports w.bindings := by
  refine ⟨(libraryWrapper {} twinFunctions).1, rfl, by decide +kernel, by decide +kernel, ?_⟩
  decide +kernel

end Synthesis

end BindingSynthesis
