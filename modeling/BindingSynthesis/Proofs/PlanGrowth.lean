import BindingSynthesis.Proofs.ClassChoice
import BindingSynthesis.Proofs.PlanCoherence
import BindingSynthesis.Proofs.WrapperNames

/-!
# BindingSynthesis.Proofs.PlanGrowth

What a plan keeps when its library gets one more symbol at the end.

```
                     wrappers                             log
before               first, others                        own ++ rest
one more function    first with more at its ends, others  own ++ new ++ rest
one more class       first, others, at most one new       own ++ rest ++ new
```

`own` is what the functions of the library left in the log.

1. Settling, requiring imports and giving names to wrappers go through their inputs in
   order, so what they made of the first inputs stands in front of what they make of
   more (`settle_append`, `prefix_foldl_require`, `classWrappers_append`).
2. A class with a new name comes last after deduplication, and a class that does not
   count is not there (`dedupe_append_of_counts`, `dedupe_append_of_not_counts`).
3. So a plan grows at its ends only (`grows_synthesize`).
-/

namespace BindingSynthesis

/-- The record was left by a callable of the wrapper. -/
def Skip.IsOf (w : Wrapper) (s : Skip) : Prop := s.owner = w.name ∧ s.reason ≠ .ownerCollision

namespace Library

/-- The library with one more function at the end. -/
def addFunction (l : Library) (f : Callable) : Library := { l with functions := l.functions ++ [f] }

/-- The library with one more class at the end. -/
def addClass (l : Library) (c : ForeignClass) : Library := { l with classes := l.classes ++ [c] }

end Library

namespace Plan

/-- A plan has more in its first wrapper, and the log has more right behind the records
of that wrapper. -/
structure GrowsInFirst (before after : Plan) (first : Wrapper) (others : List Wrapper)
    (own rest : List Skip) : Prop where
  library : after.library = before.library
  wrappers : before.wrappers = first :: others
  grown : ∃ imports bindings, after.wrappers =
    { first with
      imports := first.imports ++ imports
      bindings := first.bindings ++ bindings } :: others
  skipped : before.skipped = own ++ rest
  own_isOf : ∀ s ∈ own, s.IsOf first
  rest_not_isOf : ∀ s ∈ rest, ¬s.IsOf first
  logged : ∃ new, after.skipped = own ++ new ++ rest ∧ ∀ s ∈ new, s.IsOf first

/-- A plan has at most one more wrapper, which comes last, and more at the end of its
log. -/
structure GrowsBehind (before after : Plan) : Prop where
  library : after.library = before.library
  wrappers : ∃ new, after.wrappers = before.wrappers ++ new ∧ new.length ≤ 1
  skipped : before.skipped <+: after.skipped

end Plan

namespace Synthesis

variable {o : SynthesisOptions} {l : Library}

/-! ## more inputs -/

/-- **More offers** change nothing of what became of the offers before them. -/
theorem settle_append (owner : String) (taken : List Signature) (offers : List Offer) :
    ∃ taken', ∀ more, settle owner taken (offers ++ more) =
      ⟨(settle owner taken offers).bindings ++ (settle owner taken' more).bindings,
        (settle owner taken offers).skipped ++ (settle owner taken' more).skipped⟩ := by
  induction offers generalizing taken with
  | nil => exact ⟨taken, fun more => rfl⟩
  | cons offer offers ih =>
      cases offer with
      | refused symbol reason =>
          obtain ⟨taken', h⟩ := ih taken
          refine ⟨taken', fun more => ?_⟩
          rw [List.cons_append, settle_cons_refused, settle_cons_refused, h]
          rfl
      | overload symbol b =>
          by_cases hb : b.signature ∈ taken
          · obtain ⟨taken', h⟩ := ih taken
            refine ⟨taken', fun more => ?_⟩
            rw [List.cons_append, settle_cons_of_mem hb, settle_cons_of_mem hb, h]
            rfl
          · obtain ⟨taken', h⟩ := ih (b.signature :: taken)
            refine ⟨taken', fun more => ?_⟩
            rw [List.cons_append, settle_cons_of_not_mem hb, settle_cons_of_not_mem hb, h]
            rfl

/-- Imports that are required later come later. -/
theorem prefix_foldl_require (is imports : List Import) :
    imports <+: is.foldl (fun acc i => i.require acc) imports := by
  induction is generalizing imports with
  | nil => exact List.prefix_refl _
  | cons i is ih =>
      have hstep : imports <+: i.require imports := by
        rw [Import.require]
        split
        · exact List.prefix_refl _
        · exact List.prefix_append _ _
      exact hstep.trans (ih _)

theorem prefix_libraryImports_addFunction (l : Library) (f : Callable) :
    libraryImports l <+: libraryImports (l.addFunction f) := by
  rw [libraryImports, libraryImports, Library.addFunction, List.filterMap_append,
    List.foldl_append]
  exact prefix_foldl_require _ _

/-- **More classes** change nothing of the wrappers of the classes before them. -/
theorem classWrappers_append (o : SynthesisOptions) (library : String) (taken : List String)
    (cs : List ForeignClass) :
    ∃ taken', ∀ more, classWrappers o library taken (cs ++ more) =
      ((classWrappers o library taken cs).1 ++ (classWrappers o library taken' more).1,
        (classWrappers o library taken cs).2 ++ (classWrappers o library taken' more).2) := by
  induction cs generalizing taken with
  | nil => exact ⟨taken, fun more => rfl⟩
  | cons c cs ih =>
      by_cases hc : classWrapperName o c ∈ taken
      · obtain ⟨taken', h⟩ := ih taken
        refine ⟨taken', fun more => ?_⟩
        rw [List.cons_append, classWrappers, classWrappers, if_pos hc, if_pos hc, h]
        rfl
      · obtain ⟨taken', h⟩ := ih (classWrapperName o c :: taken)
        refine ⟨taken', fun more => ?_⟩
        rw [List.cons_append, classWrappers, classWrappers, if_neg hc, if_neg hc, h,
          List.cons_append, List.append_assoc]

theorem length_classWrappers_singleton (o : SynthesisOptions) (library : String)
    (taken : List String) (c : ForeignClass) :
    (classWrappers o library taken [c]).1.length ≤ 1 := by
  rw [classWrappers]
  split
  · exact Nat.zero_le _
  · exact Nat.le_refl _

/-! ## one more class in deduplication -/

/-- A class of a denied module is not there. -/
theorem dedupe_append_of_not_counts {c : ForeignClass} (h : ¬Dedupe.Counts o c) (library : String)
    (classes : List ForeignClass) :
    Dedupe.dedupe o library (classes ++ [c]) = Dedupe.dedupe o library classes := by
  have hpermitted : Dedupe.permitted o (classes ++ [c]) = Dedupe.permitted o classes := by
    simp [Dedupe.permitted_eq_filter, h]
  rw [Dedupe.dedupe, hpermitted, Dedupe.dedupe]

/-- A class with a name that no class has that counts comes last. -/
theorem dedupe_append_of_counts {c : ForeignClass} {classes : List ForeignClass}
    (h : Dedupe.Counts o c) (hname : ∀ d ∈ classes, Dedupe.Counts o d → d.name ≠ c.name)
    (library : String) :
    Dedupe.dedupe o library (classes ++ [c]) = Dedupe.dedupe o library classes ++ [c] := by
  have hpermitted : Dedupe.permitted o (classes ++ [c]) = Dedupe.permitted o classes ++ [c] := by
    simp [Dedupe.permitted_eq_filter, h]
  have hnew : c.name ∉ (Dedupe.dedupe o library classes).map ForeignClass.name := by
    intro hmem
    obtain ⟨d, hd, he⟩ := List.mem_map.mp hmem
    have hd := Dedupe.mem_permitted_of_mem_dedupe hd
    rw [Dedupe.permitted_eq_filter, List.mem_filter, decide_eq_true_iff] at hd
    exact hname d hd.1 hd.2 he
  rw [Dedupe.dedupe, hpermitted, List.foldl_append, List.foldl_cons, List.foldl_nil]
  exact Dedupe.place_of_not_mem hnew

/-! ## whose records -/

theorem isCollision_iff {reason : SkipReason} :
    reason.isCollision = true ↔ reason = .ownerCollision := by
  cases reason <;> simp [SkipReason.isCollision]

theorem isOf_of_mem_libraryWrapper {s : Skip} (hs : s ∈ (libraryWrapper o l).2) :
    s.IsOf (libraryWrapper o l).1 := by
  refine ⟨owner_of_mem_skipped_libraryWrapper hs, fun hcollision => ?_⟩
  have hnone := List.filter_eq_nil_iff.mp (collisions_libraryWrapper o l) s hs
  exact hnone (isCollision_iff.mpr hcollision)

/-- Classes leave collisions only under the name of the wrapper of the library. -/
theorem not_isOf_of_mem_classWrappers {cs : List ForeignClass} {s : Skip}
    (hs : s ∈ (classWrappers o l.name [libraryWrapperName o l] cs).2) :
    ¬s.IsOf (libraryWrapper o l).1 := by
  rintro ⟨howner, hreason⟩
  have hnone : skipsUnder (classWrappers o l.name [libraryWrapperName o l] cs).2
      (libraryWrapper o l).1.name (fun reason => !reason.isCollision) = [] :=
    skipsUnder_classWrappers_of_mem rfl (List.mem_singleton_self _) cs
  refine List.filter_eq_nil_iff.mp hnone s hs ?_
  simp only [Bool.and_eq_true, decide_eq_true_eq, Bool.not_eq_true', ← Bool.not_eq_true,
    isCollision_iff]
  exact ⟨howner, hreason⟩

/-! ## plans -/

/-- One more function goes to the ends of what the wrapper of the library has. -/
theorem libraryWrapper_addFunction (o : SynthesisOptions) (l : Library) (f : Callable) :
    ∃ imports bindings new, libraryWrapper o (l.addFunction f) =
      ({ (libraryWrapper o l).1 with
          imports := (libraryWrapper o l).1.imports ++ imports
          bindings := (libraryWrapper o l).1.bindings ++ bindings },
        (libraryWrapper o l).2 ++ new) := by
  obtain ⟨imports, himports⟩ := prefix_libraryImports_addFunction l f
  obtain ⟨taken, hsettle⟩ := settle_append (libraryWrapperName o l) [] (libraryOffers o l)
  have hoffers : libraryOffers o (l.addFunction f) =
      libraryOffers o l ++ functionOffers o l.name (libraryWrapperName o l) f := by
    rw [libraryOffers, Library.addFunction, List.flatMap_append, List.flatMap_singleton]
    rfl
  have hsettled := hsettle (functionOffers o l.name (libraryWrapperName o l) f)
  rw [← hoffers] at hsettled
  generalize settle (libraryWrapperName o l) taken _ = more at hsettled
  refine ⟨imports, more.bindings, more.skipped, Prod.ext ?_ (congrArg Settled.skipped hsettled)⟩
  change { (libraryWrapper o l).1 with
      imports := libraryImports (l.addFunction f)
      bindings :=
        (settle (libraryWrapperName o l) [] (libraryOffers o (l.addFunction f))).bindings } = _
  rw [← himports, hsettled]
  rfl

/-- One more function goes into the wrapper of the library. -/
theorem growsInFirst_addFunction (o : SynthesisOptions) (l : Library) (f : Callable) :
    ∃ first others own rest,
      (synthesize o l).GrowsInFirst (synthesize o (l.addFunction f)) first others own rest := by
  obtain ⟨imports, bindings, new, hwrapper⟩ := libraryWrapper_addFunction o l f
  have hnew : ∀ s ∈ new, s.IsOf (libraryWrapper o l).1 := by
    intro s hs
    have hmem : s ∈ (libraryWrapper o (l.addFunction f)).2 := by
      rw [hwrapper]
      exact List.mem_append_right _ hs
    -- The wrapper has its name from the library, whatever the functions are.
    have hname : (libraryWrapper o (l.addFunction f)).1.name = (libraryWrapper o l).1.name := rfl
    obtain ⟨howner, hreason⟩ := isOf_of_mem_libraryWrapper hmem
    exact ⟨howner.trans hname, hreason⟩
  exact ⟨(libraryWrapper o l).1, (wrappedClasses o l).map fun c => (classWrapper o l.name c).1,
    (libraryWrapper o l).2, _, {
      library := rfl
      wrappers := wrappers_synthesize o l
      grown := ⟨imports, bindings, by
        rw [wrappers_synthesize, hwrapper]
        rfl⟩
      skipped := rfl
      own_isOf := fun _ => isOf_of_mem_libraryWrapper
      rest_not_isOf := fun _ => not_isOf_of_mem_classWrappers
      logged := ⟨new, by
        rw [skipped_synthesize, hwrapper]
        rfl, hnew⟩ }⟩

/-- One more class of a new name gets the last wrapper, or none. -/
theorem growsBehind_addClass {c : ForeignClass}
    (hname : ∀ d ∈ l.classes, Dedupe.Counts o d → d.name ≠ c.name) :
    (synthesize o l).GrowsBehind (synthesize o (l.addClass c)) := by
  by_cases hc : Dedupe.Counts o c
  · obtain ⟨taken, happend⟩ := classWrappers_append o l.name [libraryWrapperName o l]
      (Dedupe.dedupe o l.name l.classes)
    have hclasses : classWrappers o l.name [libraryWrapperName o l]
        (Dedupe.dedupe o l.name (l.addClass c).classes) = _ :=
      (congrArg _ (dedupe_append_of_counts hc hname l.name)).trans (happend [c])
    refine ⟨rfl, ⟨(classWrappers o l.name taken [c]).1, ?_,
      length_classWrappers_singleton o l.name taken c⟩, ⟨(classWrappers o l.name taken [c]).2, ?_⟩⟩
    · exact congrArg (fun x => (libraryWrapper o l).1 :: x.1) hclasses
    · rw [skipped_synthesize, List.append_assoc]
      exact (congrArg (fun x => (libraryWrapper o l).2 ++ x.2) hclasses).symm
  · have hclasses := congrArg (classWrappers o l.name [libraryWrapperName o l])
      (dedupe_append_of_not_counts hc l.name l.classes)
    refine ⟨rfl, ⟨[], ?_, Nat.zero_le _⟩, ⟨[], ?_⟩⟩
    · rw [List.append_nil]
      exact congrArg (fun x => (libraryWrapper o l).1 :: x.1) hclasses
    · rw [List.append_nil]
      exact (congrArg (fun x => (libraryWrapper o l).2 ++ x.2) hclasses).symm

/-- **A plan grows at its ends only**: one more function adds to the ends of the imports
and of the bindings of the first wrapper, and to the log behind the records of that
wrapper; one more class, of a name that no class has that counts, adds at most one
wrapper behind the others, and to the end of the log. -/
theorem grows_synthesize (o : SynthesisOptions) (l : Library) :
    (∀ f, ∃ first others own rest,
      (synthesize o l).GrowsInFirst (synthesize o (l.addFunction f)) first others own rest) ∧
    ∀ c, (∀ d ∈ l.classes, Dedupe.Counts o d → d.name ≠ c.name) →
      (synthesize o l).GrowsBehind (synthesize o (l.addClass c)) :=
  ⟨growsInFirst_addFunction o l, fun _ => growsBehind_addClass⟩

/-- A function without a name, in a submodule. -/
def namelessFunction : Callable := ⟨"<lambda>", ["x"], 0, none, "lib.net"⟩

/-- A class that only constructs. -/
def rowClass : ForeignClass :=
  ⟨"Row", "lib.core", none, [⟨"__init__", ["self"], 0, none, "lib.core"⟩]⟩

/-- The function leaves its record in front of that of the class, although it is added
later; the wrapper of the class comes last. -/
theorem grows_layeredLibrary :
    (∃ first others own rest, (synthesize {} (layeredLibrary.addClass rowClass)).GrowsInFirst
      (synthesize {} ((layeredLibrary.addClass rowClass).addFunction namelessFunction))
      first others own rest) ∧
    (synthesize {} layeredLibrary).GrowsBehind (synthesize {} (layeredLibrary.addClass rowClass)) ∧
    ((synthesize {} layeredLibrary).wrappers.map Wrapper.name,
      (synthesize {} layeredLibrary).skipped) = (["JLib", "JTable"], []) ∧
    ((synthesize {} ((layeredLibrary.addClass rowClass).addFunction namelessFunction)).wrappers.map
      Wrapper.name,
      (synthesize {} ((layeredLibrary.addClass rowClass).addFunction namelessFunction)).skipped) =
      (["JLib", "JTable", "JRow"],
        [⟨"JLib", "<lambda>", .invalidName⟩, ⟨"JRow", "__init__", .constructor⟩]) :=
  ⟨(grows_synthesize {} _).1 namelessFunction,
    (grows_synthesize {} layeredLibrary).2 rowClass (by decide +kernel), by decide +kernel,
    by decide +kernel⟩

end Synthesis

end BindingSynthesis
