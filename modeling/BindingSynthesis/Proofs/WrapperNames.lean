import BindingSynthesis.Proofs.HostNames
import BindingSynthesis.Proofs.Overloads
import Mathlib.Data.List.Forall2

/-!
# BindingSynthesis.Proofs.WrapperNames

Which classes get a wrapper, and what becomes of the others.

```
library wrapper          prefix ++ capitalize (sanitize (last segment of the path))
wrapper of a class       prefix ++ sanitize (name of the class)
```

1. Names are given in order: first to the library, then to the classes that are
   left after deduplication.  A class whose name is given already gets no wrapper
   (`scan_classes`).
2. Each class leaves its own part of the log: the records of its methods if it
   has a wrapper, and a single collision if it has none
   (`skipped_classWrappers`).
3. So the wrappers and the collisions together are the library and the classes,
   and the names of the wrappers differ (`wrappers_by_name`).
-/

namespace BindingSynthesis

/-- Another wrapper had the name. -/
def SkipReason.isCollision : SkipReason → Bool
  | .ownerCollision => true
  | _ => false

namespace Synthesis

variable {o : SynthesisOptions} {l : Library} {library owner : String}

/-! ## names by position -/

/-- The wrapper name of the class at a position is that of the library's wrapper,
or that of a class at an earlier position. -/
def isNameTaken (o : SynthesisOptions) (l : Library) (cs : List ForeignClass)
    (p : ForeignClass × Nat) : Bool :=
  decide (classWrapperName o p.1 = libraryWrapperName o l) ||
    decide (classWrapperName o p.1 ∈ (cs.take p.2).map (classWrapperName o))

/-- The deduplicated classes of a library, each with whether its wrapper name is
taken. -/
def markedClasses (o : SynthesisOptions) (l : Library) : List (ForeignClass × Bool) :=
  let cs := Dedupe.dedupe o l.name l.classes
  cs.zipIdx.map fun p => (p.1, isNameTaken o l cs p)

/-- The classes whose wrapper name is free. -/
def namedClasses (o : SynthesisOptions) (l : Library) : List ForeignClass :=
  ((markedClasses o l).filter fun p => !p.2).map Prod.fst

/-- The classes whose wrapper name is taken. -/
def namelessClasses (o : SynthesisOptions) (l : Library) : List ForeignClass :=
  ((markedClasses o l).filter fun p => p.2).map Prod.fst

/-- Giving names in order marks the classes by position. -/
theorem scan_classes (o : SynthesisOptions) (l : Library) :
    scan (classWrapperName o) [libraryWrapperName o l] (Dedupe.dedupe o l.name l.classes) =
      markedClasses o l := by
  rw [scan_eq_zipIdx, markedClasses]
  simp [isNameTaken, occursBefore]

theorem wrappedClasses_eq_namedClasses (o : SynthesisOptions) (l : Library) :
    wrappedClasses o l = namedClasses o l := by
  rw [wrappedClasses, firstsAfter, scan_classes, namedClasses]

/-- Each deduplicated class has a free name or a taken one. -/
theorem length_named_add_nameless (o : SynthesisOptions) (l : Library) :
    (namedClasses o l).length + (namelessClasses o l).length =
      (Dedupe.dedupe o l.name l.classes).length := by
  have hmarked : (markedClasses o l).length = (Dedupe.dedupe o l.name l.classes).length := by
    simp [markedClasses]
  have hsplit := (markedClasses o l).length_eq_length_filter_add fun p => p.2
  rw [namedClasses, namelessClasses, List.length_map, List.length_map]
  omega

/-! ## the part of the log that a class leaves -/

/-- The record of a class whose wrapper name is taken. -/
def collision (o : SynthesisOptions) (c : ForeignClass) : Skip :=
  ⟨classWrapperName o c, c.qualifiedName, .ownerCollision⟩

/-- What a class leaves in the log, given whether its wrapper name is taken. -/
def classLog (o : SynthesisOptions) (library : String) (p : ForeignClass × Bool) : List Skip :=
  if p.2 then [collision o p.1] else (classWrapper o library p.1).2

/-- **Each class leaves its part**: the log of the classes is that of one class
after the other. -/
theorem skipped_classWrappers (taken : List String) (cs : List ForeignClass) :
    (classWrappers o library taken cs).2 =
      (scan (classWrapperName o) taken cs).flatMap (classLog o library) := by
  induction cs generalizing taken with
  | nil => rfl
  | cons c cs ih =>
      rw [classWrappers, scan]
      by_cases hc : classWrapperName o c ∈ taken
      · rw [if_pos hc, if_pos hc, List.flatMap_cons, ← ih]
        rfl
      · rw [if_neg hc, if_neg hc, List.flatMap_cons, ← ih]
        rfl

theorem skipped_eq_logs (o : SynthesisOptions) (l : Library) :
    (synthesize o l).skipped =
      (libraryWrapper o l).2 ++ (markedClasses o l).flatMap (classLog o l.name) := by
  rw [skipped_synthesize, skipped_classWrappers, scan_classes]

/-- Settling offers records no collision. -/
theorem collisions_settle (taken : List Signature) {offers : List Offer} (h : RefusesOnly offers) :
    ((settle owner taken offers).skipped.filter fun s => s.reason.isCollision) = [] := by
  induction offers generalizing taken with
  | nil => rfl
  | cons offer offers ih =>
      have ih := fun taken => ih taken h.tail
      cases offer with
      | refused symbol reason =>
          have hrefusal := h symbol reason List.mem_cons_self
          have hno : reason.isCollision = false := by
            cases reason <;> first | rfl | cases hrefusal
          rw [settle_cons_refused, List.filter_cons_of_neg (by simp [hno])]
          exact ih taken
      | overload symbol b =>
          by_cases hb : b.signature ∈ taken
          · rw [settle_cons_of_mem hb, List.filter_cons_of_neg (by simp [SkipReason.isCollision])]
            exact ih taken
          · rw [settle_cons_of_not_mem hb]
            exact ih _

theorem collisions_libraryWrapper (o : SynthesisOptions) (l : Library) :
    ((libraryWrapper o l).2.filter fun s => s.reason.isCollision) = [] :=
  collisions_settle [] (refusesOnly_of_refusals (refusals_libraryOffers o l))

theorem collisions_classWrapper (o : SynthesisOptions) (library : String) (c : ForeignClass) :
    ((classWrapper o library c).2.filter fun s => s.reason.isCollision) = [] :=
  collisions_settle [] (refusesOnly_of_refusals (refusals_classOffers o c))

/-- The collisions among the parts of marked classes are those of the classes
whose name is taken. -/
theorem collisions_classLogs (library : String) (marked : List (ForeignClass × Bool)) :
    ((marked.flatMap (classLog o library)).filter fun s => s.reason.isCollision) =
      ((marked.filter fun p => p.2).map Prod.fst).map (collision o) := by
  induction marked with
  | nil => rfl
  | cons p marked ih =>
      obtain ⟨c, taken⟩ := p
      rw [List.flatMap_cons, List.filter_append, ih]
      cases taken with
      | true => rfl
      | false =>
          change ((classWrapper o library c).2.filter _) ++ _ = _
          rw [collisions_classWrapper, List.nil_append, List.filter_cons_of_neg (by simp)]

/-- **The collisions of a plan** are those of the classes whose name is taken. -/
theorem collisions_synthesize (o : SynthesisOptions) (l : Library) :
    ((synthesize o l).skipped.filter fun s => s.reason.isCollision) =
      (namelessClasses o l).map (collision o) := by
  rw [skipped_eq_logs, List.filter_append, collisions_libraryWrapper, List.nil_append,
    collisions_classLogs, namelessClasses]

/-! ## names of wrappers -/

theorem names_wrappers (o : SynthesisOptions) (l : Library) :
    (synthesize o l).wrappers.map Wrapper.name =
      libraryWrapperName o l :: (wrappedClasses o l).map (classWrapperName o) := by
  rw [wrappers_synthesize, List.map_cons, List.map_map]
  rfl

/-- The wrappers of a plan have different names. -/
theorem nodup_names_wrappers (o : SynthesisOptions) (l : Library) :
    ((synthesize o l).wrappers.map Wrapper.name).Nodup := by
  rw [names_wrappers, List.nodup_cons]
  refine ⟨fun hm => ?_, nodup_map_firstsAfter _ _⟩
  obtain ⟨c, hc, hname⟩ := List.mem_map.mp hm
  exact key_not_mem_of_mem_firstsAfter hc (List.mem_singleton.mpr hname)

/-- What follows the prefix in the name of a wrapper are word characters. -/
theorem name_of_mem_wrappers {o : SynthesisOptions} {l : Library} {w : Wrapper}
    (hw : w ∈ (synthesize o l).wrappers) :
    ∃ rest, w.name = o.ownerPrefix ++ rest ∧ ∀ c ∈ rest.toList, HostName.isWordChar c = true := by
  obtain rfl | ⟨c, -, rfl⟩ := mem_wrappers_synthesize.mp hw
  · exact ⟨_, rfl, fun _ => HostName.isWordChar_of_mem_capitalize⟩
  · exact ⟨_, rfl, fun _ => HostName.isWordChar_of_mem_sanitize⟩

/-- The wrapper of a class of a library: it has the name, the module and the doc
of the class, and what its methods offer. -/
structure Wraps (o : SynthesisOptions) (library : String) (c : ForeignClass) (w : Wrapper) :
    Prop where
  kind : w.kind = .classLevel
  name : w.name = o.ownerPrefix ++ HostName.sanitize c.name
  foreignName : w.foreignName = c.name
  modulePath : w.modulePath = c.modulePath
  doc : w.doc = CommentText.ofDoc o.docMaxChars c.doc
  imports : w.imports = [.plain library]
  bindings : w.bindings = (settle w.name [] (c.methods.flatMap (methodOffers o w.name))).bindings

theorem wraps_classWrapper (o : SynthesisOptions) (library : String) (c : ForeignClass) :
    Wraps o library c (classWrapper o library c).1 := ⟨rfl, rfl, rfl, rfl, rfl, rfl, rfl⟩

/-- **Which class gets which wrapper**: the first wrapper is that of the library,
with the bindings of its functions, and the others are those of the classes with a
free name, in order.  The log holds what the functions of the library leave and then
what each class leaves: a class with a taken name leaves its collision only, and
nobody else leaves one.  So wrappers have different names, and none is missing but
those of the collisions. -/
theorem wrappers_by_name (o : SynthesisOptions) (l : Library) :
    ∃ first others, (synthesize o l).wrappers = first :: others ∧
      first.kind = .libraryLevel ∧
      first.name = o.ownerPrefix ++ HostName.capitalize (HostName.sanitize l.shortName) ∧
      first.bindings =
        (settle first.name [] (l.functions.flatMap (functionOffers o l.name first.name))).bindings ∧
      List.Forall₂ (Wraps o l.name) (namedClasses o l) others ∧
      (synthesize o l).skipped =
        (settle first.name [] (l.functions.flatMap (functionOffers o l.name first.name))).skipped ++
          (markedClasses o l).flatMap (classLog o l.name) ∧
      ((synthesize o l).skipped.filter fun s => s.reason.isCollision) =
        (namelessClasses o l).map (collision o) ∧
      ((synthesize o l).wrappers.map Wrapper.name).Nodup ∧
      (synthesize o l).wrappers.length +
          ((synthesize o l).skipped.filter fun s => s.reason.isCollision).length =
        1 + (Dedupe.dedupe o l.name l.classes).length := by
  have hwrappers := wrappers_synthesize o l
  rw [wrappedClasses_eq_namedClasses] at hwrappers
  refine ⟨_, _, hwrappers, rfl, rfl, rfl, ?_, skipped_eq_logs o l, collisions_synthesize o l,
    nodup_names_wrappers o l, ?_⟩
  · rw [List.forall₂_map_right_iff]
    exact List.forall₂_same.mpr fun c _ => wraps_classWrapper o l.name c
  · have hcount := length_named_add_nameless o l
    rw [hwrappers, collisions_synthesize, List.length_cons, List.length_map, List.length_map]
    omega

end Synthesis

end BindingSynthesis
