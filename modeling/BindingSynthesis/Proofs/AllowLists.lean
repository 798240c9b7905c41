import BindingSynthesis.Batch.Run
import BindingSynthesis.Proofs.ClassChoice
import BindingSynthesis.Proofs.NormalForm

/-!
# BindingSynthesis.Proofs.AllowLists

Where an allow-list is applied.

An allow-list names the functions and classes that are wanted.  An extractor may leave
the others out of the document, and a batch leaves them out of the library:

```
document             ──ofDocument──▶  library
   │ restricted                          │ retainAllowed
   ▼                                     ▼
smaller document     ──ofDocument──▶  smaller library
```

1. Validation keeps the names of functions and classes and judges the document by other
   things, so both ways around give one result, an error included
   (`ofDocument_restricted`); and a second time changes nothing
   (`retainAllowed_retainAllowed`).
2. A class only ever takes over the place of a class with its own name.  So leaving names
   out commutes with placing one class (`filter_place`), with deduplication
   (`dedupe_filter`), and with the table under whose keys the classes stand
   (`tableOf_filter`).
3. Hence one plan comes out, wherever the list is applied (`allowList_anywhere`).
-/

namespace BindingSynthesis

/-! ## wanted names -/

/-- The name is wanted: it is on the allow-list, or there is no list. -/
def IsWanted (allow : List String) (name : String) : Prop := allow = [] ∨ name ∈ allow

instance (allow : List String) : DecidablePred (IsWanted allow) := fun name =>
  inferInstanceAs (Decidable (allow = [] ∨ name ∈ allow))

@[simp] theorem isAllowed_eq (allow : List String) (name : String) :
    Library.isAllowed allow name = decide (IsWanted allow name) := by
  rw [Bool.eq_iff_iff, decide_eq_true_iff]
  simp [Library.isAllowed, IsWanted]

/-- The document with the functions and classes that are wanted, as an extractor that
knows the list writes it. -/
def MetadataDocument.restricted (allow : List String) (d : MetadataDocument) : MetadataDocument :=
  { d with
    functions := d.functions.filter fun f => IsWanted allow f.name
    classes := d.classes.filter fun c => IsWanted allow c.name }

/-! ## around validation -/

namespace Library

variable (allow : List String)

theorem retainAllowed_retainAllowed (l : Library) :
    retainAllowed allow (retainAllowed allow l) = retainAllowed allow l := by
  simp [retainAllowed, List.filter_filter]

/-- **Validation and the allow-list** may change places: what is left out of the document
is what would be left out of the library, and the errors are the same. -/
theorem ofDocument_restricted (d : MetadataDocument) :
    ofDocument (d.restricted allow) = (ofDocument d).map (retainAllowed allow) := by
  obtain ⟨library, error, functions, classes⟩ := d
  cases error with
  | some message => simp [MetadataDocument.restricted, ofDocument, Except.map]
  | none =>
      cases library with
      | none => simp [MetadataDocument.restricted, ofDocument, Except.map]
      | some name =>
          simp only [MetadataDocument.restricted, ofDocument]
          split
          · simp [Except.map]
          · -- Normal forms keep the names, by which the filters decide.
            have hname (f : Callable) : ((f.inModule name).clamped).name = f.name :=
              Callable.name_settled f name
            simp only [Except.map, retainAllowed, isAllowed_eq, List.filter_map,
              Function.comp_def, hname]
            rfl

theorem map_retainAllowed_ofDocument_restricted (d : MetadataDocument) :
    (ofDocument (d.restricted allow)).map (retainAllowed allow) =
      (ofDocument d).map (retainAllowed allow) := by
  rw [ofDocument_restricted]
  cases ofDocument d with
  | error e => rfl
  | ok l => simp only [Except.map, retainAllowed_retainAllowed]

end Library

/-! ## around deduplication -/

namespace Dedupe

variable {canonical : String} {c d : ForeignClass}

theorem place_cons_of_eq (h : d.name = c.name) (more : List ForeignClass) :
    place canonical c (d :: more) = preferred canonical d c :: more := by
  rw [place, if_pos h, preferred]

theorem place_cons_of_ne (h : d.name ≠ c.name) (more : List ForeignClass) :
    place canonical c (d :: more) = d :: place canonical c more := by
  rw [place, if_neg h]

variable (wanted : String → Bool)

/-- **One class**: if its name is left out, it changes nothing that is kept, and otherwise
it is placed as it would be among what is kept. -/
theorem filter_place (canonical : String) (c : ForeignClass) (chosen : List ForeignClass) :
    (place canonical c chosen).filter (fun d => wanted d.name) =
      if wanted c.name then place canonical c (chosen.filter fun d => wanted d.name)
      else chosen.filter fun d => wanted d.name := by
  induction chosen with
  | nil => cases hc : wanted c.name <;> simp [place, hc]
  | cons d more ih =>
      by_cases hd : d.name = c.name
      · -- The place is taken over by a class of the same name, so both are kept or none.
        have hkept : (preferred canonical d c).name = c.name := name_preferred hd
        rw [place_cons_of_eq hd]
        cases hc : wanted c.name <;> simp [hd, hkept, hc, place_cons_of_eq hd]
      · rw [place_cons_of_ne hd]
        cases hdw : wanted d.name <;> cases hc : wanted c.name <;>
          simp [place_cons_of_ne hd, hdw, hc, ih]

/-- Placing the classes that are kept gives what is kept of placing all of them. -/
theorem foldl_place_filter (canonical : String) (cs chosen : List ForeignClass) :
    (cs.filter fun c => wanted c.name).foldl (fun chosen c => place canonical c chosen)
        (chosen.filter fun c => wanted c.name) =
      (cs.foldl (fun chosen c => place canonical c chosen) chosen).filter
        fun c => wanted c.name := by
  induction cs generalizing chosen with
  | nil => rfl
  | cons c cs ih =>
      rw [List.foldl_cons, ← ih, filter_place]
      cases hc : wanted c.name <;> simp [hc]

/-- **Deduplication and leaving names out** may change places. -/
theorem dedupe_filter (o : SynthesisOptions) (library : String) (cs : List ForeignClass) :
    dedupe o library (cs.filter fun c => wanted c.name) =
      (dedupe o library cs).filter fun c => wanted c.name := by
  have hpermitted : permitted o (cs.filter fun c => wanted c.name) =
      (permitted o cs).filter fun c => wanted c.name := by
    simp [permitted, List.filter_filter, Bool.and_comm]
  rw [dedupe, dedupe, hpermitted]
  exact foldl_place_filter wanted _ (permitted o cs) []

/-- The same for the table: each key that is left has the class that it had, and the keys
have the order that they had. -/
theorem tableOf_filter (o : SynthesisOptions) (library : String) (cs : List ForeignClass) :
    tableOf o library (cs.filter fun c => wanted c.name) =
      (tableOf o library cs).filter fun entry => wanted entry.1 := by
  rw [tableOf_eq, tableOf_eq, dedupe_filter, List.filter_map]
  rfl

end Dedupe

/-! ## around a batch -/

namespace Batch

/-- **It does not matter where an allow-list is applied**: before validation, after it or
at both places, the library is the same, or the error is, and so is the plan for a
request.  Of the table of all classes, the table of those that are retained has the
wanted keys, each with the class that it has there and in the order that they have
there; so the classes that are left to wrap are the wanted ones of all. -/
theorem allowList_anywhere (o : SynthesisOptions) (allow : List String) (d : MetadataDocument) :
    Library.ofDocument (d.restricted allow) =
        (Library.ofDocument d).map (Library.retainAllowed allow) ∧
      (Library.ofDocument (d.restricted allow)).map (Library.retainAllowed allow) =
        (Library.ofDocument d).map (Library.retainAllowed allow) ∧
      (∀ r : Request,
        planOf o { r with includeOnly := [] } (d.restricted allow) =
            planOf o { r with includeOnly := allow } d ∧
          planOf o { r with includeOnly := allow } (d.restricted allow) =
            planOf o { r with includeOnly := allow } d) ∧
      ∀ l : Library,
        Dedupe.tableOf o l.name (l.retainAllowed allow).classes =
            (Dedupe.tableOf o l.name l.classes).filter (fun entry => IsWanted allow entry.1) ∧
          Dedupe.dedupe o l.name (l.retainAllowed allow).classes =
            (Dedupe.dedupe o l.name l.classes).filter (fun c => IsWanted allow c.name) := by
  have hbefore := Library.ofDocument_restricted allow d
  have hboth := Library.map_retainAllowed_ofDocument_restricted allow d
  have hplan (x : Except DocumentError Library) :
      (x.map fun l => Synthesis.synthesize o (l.retainAllowed allow)) =
        (x.map (Library.retainAllowed allow)).map (Synthesis.synthesize o) := by
    cases x <;> rfl
  refine ⟨hbefore, hboth, fun r => ⟨?_, ?_⟩, fun l => ?_⟩
  · simp only [planOf, Library.retainAllowed_nil, hbefore, hplan]
  · simp only [planOf, hplan, hboth]
  · have hclasses : (l.retainAllowed allow).classes =
        l.classes.filter fun c => decide (IsWanted allow c.name) := by
      simp [Library.retainAllowed]
    rw [hclasses]
    exact ⟨Dedupe.tableOf_filter (IsWanted allow ·) o l.name l.classes,
      Dedupe.dedupe_filter (IsWanted allow ·) o l.name l.classes⟩

end Batch

end BindingSynthesis
