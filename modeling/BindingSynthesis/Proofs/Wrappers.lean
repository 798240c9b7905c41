import BindingSynthesis.Proofs.Settling

/-!
# BindingSynthesis.Proofs.Wrappers

The wrappers of a synthesized plan, and the part of its log that each of them
owns.

1. Deduplication leaves one class for each name (`nodup_names_dedupe`), so the
   foreign name of a wrapper of a class says which class it wraps, and
   `wrappedCallables` finds its methods.
2. The classes that get a wrapper are those that come first with their wrapper
   name, the name of the library's wrapper being taken (`classWrappers_eq`).
3. Collisions apart, the records under the name of a wrapper are those that its
   own callables left (`skipsUnder_classWrapper`, `skipsUnder_libraryWrapper`).
-/

namespace BindingSynthesis.Synthesis

variable {o : SynthesisOptions} {l : Library} {library owner : String}

/-! ## one class for each name -/

/-- Placing a class adds its name at the end, unless a class of that name is placed
already. -/
theorem map_name_place (canonical : String) (c : ForeignClass) (chosen : List ForeignClass) :
    (Dedupe.place canonical c chosen).map ForeignClass.name =
      if c.name ∈ chosen.map ForeignClass.name then chosen.map ForeignClass.name
      else chosen.map ForeignClass.name ++ [c.name] := by
  induction chosen with
  | nil => rfl
  | cons d more ih =>
      rw [Dedupe.place]
      by_cases hd : d.name = c.name
      · rw [if_pos hd, List.map_cons, List.map_cons, hd, if_pos List.mem_cons_self]
        congr 1
        split
        · rfl
        · exact hd
      · rw [if_neg hd, List.map_cons, List.map_cons, ih]
        by_cases hm : c.name ∈ more.map ForeignClass.name
        · rw [if_pos hm, if_pos (List.mem_cons_of_mem _ hm)]
        · rw [if_neg hm, if_neg (by simp [Ne.symm hd] at hm ⊢; exact hm), List.cons_append]

/-- So the names of the placed classes stay distinct. -/
theorem nodup_names_place {chosen : List ForeignClass} (canonical : String) (c : ForeignClass)
    (h : (chosen.map ForeignClass.name).Nodup) :
    ((Dedupe.place canonical c chosen).map ForeignClass.name).Nodup := by
  rw [map_name_place]
  split
  · exact h
  · next hc =>
      refine List.nodup_append.mpr ⟨h, by simp, fun name hname _ hlast => ?_⟩
      rw [List.mem_singleton.mp hlast]
      exact fun he => hc (he ▸ hname)

/-- Deduplicated classes have different names. -/
theorem nodup_names_dedupe (o : SynthesisOptions) (library : String) (classes : List ForeignClass) :
    ((Dedupe.dedupe o library classes).map ForeignClass.name).Nodup := by
  have h : ∀ (cs chosen : List ForeignClass), (chosen.map ForeignClass.name).Nodup →
      ((cs.foldl (fun chosen c => Dedupe.place (o.canonicalModule library) c chosen) chosen).map
        ForeignClass.name).Nodup := by
    intro cs
    induction cs with
    | nil => exact fun chosen hc => hc
    | cons c cs ih => exact fun chosen hc => ih _ (nodup_names_place _ c hc)
  exact h _ [] List.nodup_nil

/-- A class of different names is found by its name. -/
theorem find?_name {classes : List ForeignClass} {c : ForeignClass}
    (h : (classes.map ForeignClass.name).Nodup) (hc : c ∈ classes) :
    classes.find? (fun d => d.name == c.name) = some c := by
  induction classes with
  | nil => cases hc
  | cons d more ih =>
      rw [List.map_cons, List.nodup_cons] at h
      cases List.mem_cons.mp hc with
      | inl he => simp [he]
      | inr hm =>
          have hne : d.name ≠ c.name := fun e => h.1 (e ▸ List.mem_map_of_mem hm)
          simp [hne, ih h.2 hm]

/-! ## what a wrapper wraps -/

/-- The callables that a wrapper of the plan for a library stands for: the
functions of the library, or the methods of the class with its foreign name. -/
def wrappedCallables (o : SynthesisOptions) (l : Library) (w : Wrapper) : List Callable :=
  match w.kind with
  | .libraryLevel => l.functions
  | .classLevel =>
    match (Dedupe.dedupe o l.name l.classes).find? fun c => c.name == w.foreignName with
    | none => []
    | some c => c.methods

/-- A class wrapper is made from the methods of the chosen class of its name. -/
theorem wrappedCallables_classWrapper {c : ForeignClass}
    (hc : c ∈ Dedupe.dedupe o l.name l.classes) :
    wrappedCallables o l (classWrapper o l.name c).1 = c.methods := by
  have hfind := find?_name (nodup_names_dedupe o l.name l.classes) hc
  change (match (Dedupe.dedupe o l.name l.classes).find? fun d => d.name == c.name with
    | none => []
    | some d => d.methods) = c.methods
  rw [hfind]

/-! ## the classes with a wrapper -/

/-- A class gets a wrapper if it comes first with its wrapper name and the name
is not taken. -/
theorem classWrappers_eq (taken : List String) (cs : List ForeignClass) :
    (classWrappers o library taken cs).1 =
      (firstsAfter (classWrapperName o) taken cs).map fun c => (classWrapper o library c).1 := by
  induction cs generalizing taken with
  | nil => rfl
  | cons c cs ih =>
      rw [classWrappers]
      by_cases hc : classWrapperName o c ∈ taken
      · rw [if_pos hc, firstsAfter_cons_of_mem hc]
        exact ih taken
      · rw [if_neg hc, firstsAfter_cons_of_not_mem hc, List.map_cons]
        exact congrArg _ (ih _)

/-- The classes of a library that get a wrapper. -/
def wrappedClasses (o : SynthesisOptions) (l : Library) : List ForeignClass :=
  firstsAfter (classWrapperName o) [libraryWrapperName o l] (Dedupe.dedupe o l.name l.classes)

/-- Only chosen classes are wrapped. -/
theorem mem_of_mem_wrappedClasses {c : ForeignClass} (hc : c ∈ wrappedClasses o l) :
    c ∈ Dedupe.dedupe o l.name l.classes :=
  mem_of_mem_firstsAfter hc

/-- **The wrappers of a plan**: that of the library, then those of the wrapped
classes. -/
theorem wrappers_synthesize (o : SynthesisOptions) (l : Library) :
    (synthesize o l).wrappers =
      (libraryWrapper o l).1 :: (wrappedClasses o l).map fun c => (classWrapper o l.name c).1 :=
  congrArg _ (classWrappers_eq _ _)

/-- A wrapper of the plan is that of the library or of a wrapped class. -/
theorem mem_wrappers_synthesize {w : Wrapper} :
    w ∈ (synthesize o l).wrappers ↔
      w = (libraryWrapper o l).1 ∨ ∃ c ∈ wrappedClasses o l, w = (classWrapper o l.name c).1 := by
  rw [wrappers_synthesize, List.mem_cons, List.mem_map]
  simp only [eq_comm]

/-! ## the log of a wrapper -/

/-- The records under a wrapper name whose reason is of some kind, in order. -/
def skipsUnder (skipped : List Skip) (owner : String) (ofKind : SkipReason → Bool) : List Skip :=
  skipped.filter fun s => decide (s.owner = owner) && ofKind s.reason

variable {ofKind : SkipReason → Bool}

/-- The records of an owner may be looked up log by log. -/
theorem skipsUnder_append (xs ys : List Skip) :
    skipsUnder (xs ++ ys) owner ofKind = skipsUnder xs owner ofKind ++ skipsUnder ys owner ofKind :=
  List.filter_append _ _

/-- In the log of the owner itself only the kind of record is asked for. -/
theorem skipsUnder_of_owner {skipped : List Skip} (h : ∀ s ∈ skipped, s.owner = owner) :
    skipsUnder skipped owner ofKind = skipped.filter fun s => ofKind s.reason :=
  List.filter_congr fun s hs => by simp [h s hs]

/-- The log of another owner has no record of this one. -/
theorem skipsUnder_of_ne {skipped : List Skip} {other : String} (h : ∀ s ∈ skipped, s.owner = other)
    (hne : other ≠ owner) : skipsUnder skipped owner ofKind = [] :=
  List.filter_eq_nil_iff.mpr fun s hs => by simp [h s hs, hne]

/-- A class wrapper logs under its own name. -/
theorem owner_of_mem_skipped_classWrapper {c : ForeignClass} {s : Skip}
    (h : s ∈ (classWrapper o library c).2) : s.owner = classWrapperName o c :=
  owner_of_mem_skipped_settle h

/-- So does the library wrapper. -/
theorem owner_of_mem_skipped_libraryWrapper {s : Skip} (h : s ∈ (libraryWrapper o l).2) :
    s.owner = libraryWrapperName o l :=
  owner_of_mem_skipped_settle h

/-- Under a name that is taken, classes leave collisions only. -/
theorem skipsUnder_classWrappers_of_mem (hkind : ofKind .ownerCollision = false)
    {taken : List String} (howner : owner ∈ taken) (cs : List ForeignClass) :
    skipsUnder (classWrappers o library taken cs).2 owner ofKind = [] := by
  induction cs generalizing taken with
  | nil => rfl
  | cons c cs ih =>
      rw [classWrappers]
      by_cases hc : classWrapperName o c ∈ taken
      · rw [if_pos hc]
        change skipsUnder (_ :: _) owner ofKind = []
        rw [skipsUnder, List.filter_cons_of_neg (by simp [hkind])]
        exact ih howner
      · have hne : classWrapperName o c ≠ owner := fun e => hc (e ▸ howner)
        rw [if_neg hc]
        change skipsUnder (_ ++ _) owner ofKind = []
        rw [skipsUnder_append, skipsUnder_of_ne (fun _ => owner_of_mem_skipped_classWrapper) hne,
          ih (List.mem_cons_of_mem _ howner), List.nil_append]

/-- Under the name of a class that gets a wrapper, collisions apart, classes
leave what the methods of that class left. -/
theorem skipsUnder_classWrappers (hkind : ofKind .ownerCollision = false) {taken : List String}
    {c : ForeignClass} {cs : List ForeignClass}
    (hc : c ∈ firstsAfter (classWrapperName o) taken cs) :
    skipsUnder (classWrappers o library taken cs).2 (classWrapperName o c) ofKind =
      (classWrapper o library c).2.filter fun s => ofKind s.reason := by
  induction cs generalizing taken with
  | nil => cases hc
  | cons d cs ih =>
      rw [classWrappers]
      by_cases hd : classWrapperName o d ∈ taken
      · rw [firstsAfter_cons_of_mem hd] at hc
        rw [if_pos hd]
        change skipsUnder (_ :: _) _ ofKind = _
        rw [skipsUnder, List.filter_cons_of_neg (by simp [hkind])]
        exact ih hc
      · rw [firstsAfter_cons_of_not_mem hd] at hc
        rw [if_neg hd]
        change skipsUnder (_ ++ _) _ ofKind = _
        rw [skipsUnder_append]
        cases List.mem_cons.mp hc with
        | inl he =>
            subst he
            rw [skipsUnder_of_owner fun _ => owner_of_mem_skipped_classWrapper,
              skipsUnder_classWrappers_of_mem hkind List.mem_cons_self, List.append_nil]
        | inr hm =>
            -- The name of `d` is taken from here on, so it is not that of `c`.
            have hne : classWrapperName o d ≠ classWrapperName o c := fun e =>
              key_not_mem_of_mem_firstsAfter hm (e ▸ List.mem_cons_self)
            rw [skipsUnder_of_ne (fun _ => owner_of_mem_skipped_classWrapper) hne, List.nil_append]
            exact ih hm

/-- The log of the plan starts with that of the library, and those of the classes follow. -/
theorem skipped_synthesize (o : SynthesisOptions) (l : Library) :
    (synthesize o l).skipped = (libraryWrapper o l).2 ++
      (classWrappers o l.name [libraryWrapperName o l] (Dedupe.dedupe o l.name l.classes)).2 := rfl

/-- **The log of the wrapper of a library**, collisions apart. -/
theorem skipsUnder_libraryWrapper (hkind : ofKind .ownerCollision = false) :
    skipsUnder (synthesize o l).skipped (libraryWrapper o l).1.name ofKind =
      (libraryWrapper o l).2.filter fun s => ofKind s.reason := by
  change skipsUnder _ (libraryWrapperName o l) ofKind = _
  rw [skipped_synthesize, skipsUnder_append,
    skipsUnder_of_owner fun _ => owner_of_mem_skipped_libraryWrapper,
    skipsUnder_classWrappers_of_mem hkind List.mem_cons_self, List.append_nil]

/-- **The log of the wrapper of a class**, collisions apart. -/
theorem skipsUnder_classWrapper (hkind : ofKind .ownerCollision = false) {c : ForeignClass}
    (hc : c ∈ wrappedClasses o l) :
    skipsUnder (synthesize o l).skipped (classWrapper o l.name c).1.name ofKind =
      (classWrapper o l.name c).2.filter fun s => ofKind s.reason := by
  have hne : libraryWrapperName o l ≠ classWrapperName o c := fun e =>
    key_not_mem_of_mem_firstsAfter hc (e ▸ List.mem_cons_self)
  change skipsUnder _ (classWrapperName o c) ofKind = _
  rw [skipped_synthesize, skipsUnder_append,
    skipsUnder_of_ne (fun _ => owner_of_mem_skipped_libraryWrapper) hne, List.nil_append,
    skipsUnder_classWrappers hkind hc]

end BindingSynthesis.Synthesis
