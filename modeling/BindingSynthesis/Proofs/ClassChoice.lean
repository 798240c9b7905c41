import BindingSynthesis.Proofs.Wrappers
import Mathlib.Data.List.Induction

/-!
# BindingSynthesis.Proofs.ClassChoice

Which class stands for a name that several classes have.

Deduplication fills a table of classes under their names.  A class that takes the
entry of another one over takes its place as well:

```
place of a name    that of the first class with the name
class of a name    the first one from the canonical module, if there is one,
                   otherwise the first one
```

1. The table has its keys from its classes, and its classes are what deduplication
   leaves (`tableOf_eq`).
2. One more class changes the look-up of its own name only, and there it wins only
   against a class from another module than the canonical one (`find?_place`).
3. So keys and look-ups are those of the rule above, and a second run changes
   nothing (`tableOf_eq_choices`).
-/

namespace BindingSynthesis.Dedupe

variable {o : SynthesisOptions} {library canonical : String} {c : ForeignClass}

/-! ## the rule -/

/-- The path of the module of a class contains none of the denied patterns. -/
def Counts (o : SynthesisOptions) (c : ForeignClass) : Prop :=
  ∀ pattern ∈ o.deniedModulePatterns, ¬pattern.toList <:+: c.modulePath.toList

instance (o : SynthesisOptions) : DecidablePred (Counts o) := fun c =>
  inferInstanceAs (Decidable (∀ pattern ∈ o.deniedModulePatterns,
    ¬pattern.toList <:+: c.modulePath.toList))

/-- The class that stands for a name: the first one of that name from the canonical
module, or else the first one of that name. -/
def choiceFor? (canonical : String) (cs : List ForeignClass) (name : String) :
    Option ForeignClass :=
  (cs.find? fun c => c.name = name ∧ c.modulePath = canonical).or
    (cs.find? fun c => c.name = name)

theorem isDenied_eq_false_iff : o.isDenied c.modulePath = false ↔ Counts o c := by
  simp [SynthesisOptions.isDenied, Counts, Text.contains, Text.occursIn_iff,
    ← Bool.not_eq_true]

theorem permitted_eq_filter (o : SynthesisOptions) (classes : List ForeignClass) :
    permitted o classes = classes.filter (Counts o ·) :=
  List.filter_congr fun c _ => by
    rw [Bool.eq_iff_iff, Bool.not_eq_true', isDenied_eq_false_iff, decide_eq_true_iff]

/-! ## the table -/

/-- Classes under names, in the order in which the names came. -/
abbrev Table := List (String × ForeignClass)

/-- A class under its name. -/
def keyed (c : ForeignClass) : String × ForeignClass := (c.name, c)

/-- The class that keeps an entry: a later one takes it over if it is from the
canonical module and the earlier one is not. -/
def preferred (canonical : String) (earlier later : ForeignClass) : ForeignClass :=
  if later.modulePath = canonical ∧ earlier.modulePath ≠ canonical then later else earlier

theorem name_preferred {d : ForeignClass} (h : d.name = c.name) :
    (preferred canonical d c).name = c.name := by
  rw [preferred]
  split
  · rfl
  · exact h

/-- The table with one more class considered. -/
def Table.consider (canonical : String) (c : ForeignClass) (t : Table) : Table :=
  match t.lookup c.name with
  | none => t ++ [keyed c]
  | some d =>
    t.map fun entry => if entry.1 = c.name then (entry.1, preferred canonical d c) else entry

/-- The table of the classes of modules that are not denied. -/
def tableOf (o : SynthesisOptions) (library : String) (classes : List ForeignClass) : Table :=
  (permitted o classes).foldl (fun t c => t.consider (o.canonicalModule library) c) []

theorem lookup_map_keyed (cs : List ForeignClass) (name : String) :
    (cs.map keyed).lookup name = cs.find? fun c => c.name = name := by
  induction cs with
  | nil => rfl
  | cons d cs ih =>
      rw [List.map_cons, List.find?_cons, keyed, List.lookup_cons, ih]
      by_cases h : d.name = name
      · simp [h]
      · have hne : (name == d.name) = false := beq_eq_false_iff_ne.mpr (Ne.symm h)
        simp [h, hne]

/-- A class with a new name goes to the end. -/
theorem place_of_not_mem {chosen : List ForeignClass} (h : c.name ∉ chosen.map ForeignClass.name) :
    place canonical c chosen = chosen ++ [c] := by
  induction chosen with
  | nil => rfl
  | cons d more ih =>
      rw [List.map_cons, List.mem_cons, not_or] at h
      rw [place, if_neg (Ne.symm h.1), ih h.2, List.cons_append]

/-- A class with a name that is there may take the entry over. -/
theorem place_of_find? {chosen : List ForeignClass} {d : ForeignClass}
    (hnodup : (chosen.map ForeignClass.name).Nodup)
    (h : (chosen.find? fun e => e.name = c.name) = some d) :
    place canonical c chosen =
      chosen.map fun e => if e.name = c.name then preferred canonical d c else e := by
  induction chosen with
  | nil => cases h
  | cons e more ih =>
      rw [List.map_cons, List.nodup_cons] at hnodup
      rw [place, List.map_cons]
      by_cases he : e.name = c.name
      · have hde : e = d := by simpa [he] using h
        have hmore : more.map (fun e => if e.name = c.name then preferred canonical d c else e) =
            more.map id := List.map_congr_left fun e' he' =>
          if_neg fun hname => hnodup.1 (by
            rw [he, ← hname]
            exact List.mem_map_of_mem he')
        rw [if_pos he, if_pos he, hmore, List.map_id, hde, preferred]
      · rw [if_neg he, if_neg he, ih hnodup.2 (by simpa [he] using h)]

/-- The table and the list of its classes are filled alike. -/
theorem consider_map_keyed {chosen : List ForeignClass}
    (hnodup : (chosen.map ForeignClass.name).Nodup) (canonical : String) (c : ForeignClass) :
    Table.consider canonical c (chosen.map keyed) = (place canonical c chosen).map keyed := by
  rw [Table.consider, lookup_map_keyed]
  cases hfind : chosen.find? fun e => e.name = c.name with
  | none =>
      have hnew : c.name ∉ chosen.map ForeignClass.name := by
        intro hmem
        obtain ⟨e, he, hname⟩ := List.mem_map.mp hmem
        exact List.find?_eq_none.mp hfind e he (decide_eq_true hname)
      rw [place_of_not_mem hnew, List.map_append, List.map_singleton]
  | some d =>
      have hd : d.name = c.name := by simpa using List.find?_some hfind
      rw [place_of_find? hnodup hfind]
      simp only [List.map_map]
      refine List.map_congr_left fun e _ => ?_
      simp only [Function.comp_apply, keyed]
      by_cases he : e.name = c.name
      · simp only [he, if_true, name_preferred hd]
      · simp only [he, if_false]

/-- **The table has its keys from its classes**, and they are what deduplication
leaves. -/
theorem tableOf_eq (o : SynthesisOptions) (library : String) (classes : List ForeignClass) :
    tableOf o library classes = (dedupe o library classes).map keyed := by
  have hfold : ∀ (cs chosen : List ForeignClass), (chosen.map ForeignClass.name).Nodup →
      cs.foldl (fun t c => Table.consider (o.canonicalModule library) c t) (chosen.map keyed) =
        (cs.foldl (fun chosen c => place (o.canonicalModule library) c chosen) chosen).map
          keyed := by
    intro cs
    induction cs with
    | nil => exact fun chosen _ => rfl
    | cons c cs ih =>
        intro chosen hnodup
        rw [List.foldl_cons, List.foldl_cons, consider_map_keyed hnodup]
        exact ih _ (Synthesis.nodup_names_place _ c hnodup)
  exact hfold _ [] List.nodup_nil

/-! ## keys -/

/-- The names are those of the classes that come first with their name, behind the
names that are there. -/
theorem map_name_foldl_place (canonical : String) (cs chosen : List ForeignClass) :
    (cs.foldl (fun chosen c => place canonical c chosen) chosen).map ForeignClass.name =
      chosen.map ForeignClass.name ++
        (firstsAfter ForeignClass.name (chosen.map ForeignClass.name) cs).map ForeignClass.name := by
  induction cs generalizing chosen with
  | nil => rw [List.foldl_nil, firstsAfter_nil, List.map_nil, List.append_nil]
  | cons c cs ih =>
      rw [List.foldl_cons, ih, Synthesis.map_name_place]
      by_cases hc : c.name ∈ chosen.map ForeignClass.name
      · rw [if_pos hc, firstsAfter_cons_of_mem hc]
      · have hkeys : ∀ k, k ∈ chosen.map ForeignClass.name ++ [c.name] ↔
            k ∈ c.name :: chosen.map ForeignClass.name := by
          intro k
          rw [List.mem_append, List.mem_singleton, List.mem_cons, or_comm]
        rw [if_neg hc, firstsAfter_cons_of_not_mem hc, firstsAfter_congr hkeys, List.map_cons,
          List.append_assoc, List.singleton_append]

theorem map_name_dedupe (o : SynthesisOptions) (library : String) (classes : List ForeignClass) :
    (dedupe o library classes).map ForeignClass.name =
      (firstOccurrences ForeignClass.name (permitted o classes)).map ForeignClass.name := by
  rw [dedupe, map_name_foldl_place, List.map_nil, List.nil_append,
    firstsAfter_eq_firstOccurrences]

/-! ## look-ups -/

/-- **One more class** changes the look-up of its own name only. -/
theorem find?_place (canonical : String) (c : ForeignClass) (chosen : List ForeignClass)
    (name : String) :
    (place canonical c chosen).find? (fun e => e.name = name) =
      if c.name = name then
        some (((chosen.find? fun e => e.name = name).map fun d => preferred canonical d c).getD c)
      else chosen.find? fun e => e.name = name := by
  induction chosen with
  | nil =>
      rw [place, List.find?_singleton]
      simp
  | cons d more ih =>
      rw [place]
      by_cases hd : d.name = c.name
      · rw [if_pos hd]
        by_cases hname : c.name = name
        · rw [if_pos hname, ← preferred]
          simp [name_preferred hd, hname, hd.trans hname]
        · have hkept : ¬(if c.modulePath = canonical ∧ d.modulePath ≠ canonical then c else d).name =
              name := by
            split
            · exact hname
            · rwa [hd]
          have hdname : ¬d.name = name := hd ▸ hname
          rw [if_neg hname]
          simp [hkept, hdname]
      · rw [if_neg hd, List.find?_cons, ih]
        by_cases hdname : d.name = name
        · have hname : ¬c.name = name := fun h => hd (hdname.trans h.symm)
          simp [hdname, hname]
        · simp [hdname]

theorem choiceFor?_append_of_ne {cs : List ForeignClass} {name : String} (h : c.name ≠ name) :
    choiceFor? canonical (cs ++ [c]) name = choiceFor? canonical cs name := by
  simp [choiceFor?, List.find?_append, h]

/-- One more class of a name is chosen if there was none, or by preference. -/
theorem choiceFor?_append_self (canonical : String) (c : ForeignClass) (cs : List ForeignClass) :
    choiceFor? canonical (cs ++ [c]) c.name =
      some (((choiceFor? canonical cs c.name).map fun d => preferred canonical d c).getD c) := by
  rw [choiceFor?, choiceFor?, List.find?_append, List.find?_append]
  cases hcanonical : cs.find? fun d => d.name = c.name ∧ d.modulePath = canonical with
  | some d =>
      have hd : d.modulePath = canonical := by
        have h := List.find?_some hcanonical
        simp only [decide_eq_true_eq] at h
        exact h.2
      simp [preferred, hd]
  | none =>
      cases hfirst : cs.find? fun d => d.name = c.name with
      | none => by_cases hc : c.modulePath = canonical <;> simp [hc]
      | some d =>
          -- No class of the name is from the canonical module so far, so `d` is not.
          have hname : d.name = c.name := by simpa using List.find?_some hfirst
          have hd : d.modulePath ≠ canonical := fun h =>
            List.find?_eq_none.mp hcanonical d (List.mem_of_find?_eq_some hfirst) (by simp [hname, h])
          by_cases hc : c.modulePath = canonical <;> simp [preferred, hc, hd]

/-- **The class of a name** after deduplication is the one that the rule chooses. -/
theorem find?_dedupe (o : SynthesisOptions) (library : String) (classes : List ForeignClass)
    (name : String) :
    (dedupe o library classes).find? (fun c => c.name = name) =
      choiceFor? (o.canonicalModule library) (permitted o classes) name := by
  rw [dedupe]
  induction permitted o classes using List.reverseRecOn with
  | nil => rfl
  | append_singleton cs c ih =>
      rw [List.foldl_append, List.foldl_cons, List.foldl_nil, find?_place, ih]
      by_cases hname : c.name = name
      · subst hname
        rw [if_pos rfl, choiceFor?_append_self]
      · rw [if_neg hname, choiceFor?_append_of_ne hname]

/-! ## a second run -/

/-- Classes of different names stay as they are. -/
theorem foldl_place_of_nodup (canonical : String) {cs chosen : List ForeignClass}
    (h : ((chosen ++ cs).map ForeignClass.name).Nodup) :
    cs.foldl (fun chosen c => place canonical c chosen) chosen = chosen ++ cs := by
  induction cs generalizing chosen with
  | nil => rw [List.foldl_nil, List.append_nil]
  | cons c cs ih =>
      have hnew : c.name ∉ chosen.map ForeignClass.name := by
        rw [List.map_append, List.nodup_append] at h
        exact fun hmem => h.2.2 _ hmem _ List.mem_cons_self rfl
      have hlist : chosen ++ c :: cs = (chosen ++ [c]) ++ cs := by simp
      rw [List.foldl_cons, place_of_not_mem hnew, hlist, ih (hlist ▸ h)]

theorem mem_permitted_of_mem_dedupe {classes : List ForeignClass}
    (hc : c ∈ dedupe o library classes) : c ∈ permitted o classes := by
  have hfind := Synthesis.find?_name (Synthesis.nodup_names_dedupe o library classes) hc
  have hchoice := find?_dedupe o library classes c.name
  simp only [beq_eq_decide] at hfind
  rw [hfind, choiceFor?] at hchoice
  obtain h | ⟨-, h⟩ := Option.or_eq_some_iff.mp hchoice.symm
  · exact List.mem_of_find?_eq_some h
  · exact List.mem_of_find?_eq_some h

/-- Deduplicated classes stay as they are. -/
theorem dedupe_dedupe (o : SynthesisOptions) (library : String) (classes : List ForeignClass) :
    dedupe o library (dedupe o library classes) = dedupe o library classes := by
  have hpermitted : permitted o (dedupe o library classes) = dedupe o library classes :=
    List.filter_eq_self.mpr fun c hc => (List.mem_filter.mp (mem_permitted_of_mem_dedupe hc)).2
  have hnodup := Synthesis.nodup_names_dedupe o library classes
  generalize dedupe o library classes = cs at hpermitted hnodup ⊢
  rw [dedupe, hpermitted, foldl_place_of_nodup _ (by rwa [List.nil_append]), List.nil_append]

/-- **Which class stands for a name**: the table of the classes that count has each of
their names once, in the order in which they come first, and under each name the first
class of that name from the canonical module, or the first one of that name if there is
none.  Every class stands under its own name, and a second run changes nothing. -/
theorem tableOf_eq_choices (o : SynthesisOptions) (library : String)
    (classes : List ForeignClass) :
    (tableOf o library classes).map Prod.snd = dedupe o library classes ∧
      (tableOf o library classes).map Prod.fst =
        (firstOccurrences ForeignClass.name (classes.filter (Counts o ·))).map
          ForeignClass.name ∧
      ((tableOf o library classes).map Prod.fst).Nodup ∧
      (∀ name, name ∈ (tableOf o library classes).map Prod.fst ↔
        ∃ c ∈ classes, Counts o c ∧ c.name = name) ∧
      (∀ name, (tableOf o library classes).lookup name =
        choiceFor? (library ++ o.canonicalModuleSuffix) (classes.filter (Counts o ·)) name) ∧
      (tableOf o library classes).map (fun entry => entry.2.name) =
        (tableOf o library classes).map Prod.fst ∧
      tableOf o library ((tableOf o library classes).map Prod.snd) =
        tableOf o library classes := by
  have hvalues : (tableOf o library classes).map Prod.snd = dedupe o library classes := by
    rw [tableOf_eq, List.map_map]
    exact List.map_id _
  have hkeys : (tableOf o library classes).map Prod.fst =
      (dedupe o library classes).map ForeignClass.name := by
    rw [tableOf_eq, List.map_map]
    rfl
  refine ⟨hvalues, ?_, ?_, fun name => ?_, fun name => ?_, ?_, ?_⟩
  · rw [hkeys, map_name_dedupe, permitted_eq_filter]
  · rw [hkeys]
    exact Synthesis.nodup_names_dedupe o library classes
  · rw [hkeys, map_name_dedupe, ← firstsAfter_eq_firstOccurrences, mem_map_firstsAfter,
      permitted_eq_filter]
    simp [List.mem_map, List.mem_filter, and_assoc]
  · rw [tableOf_eq, lookup_map_keyed, find?_dedupe, permitted_eq_filter,
      SynthesisOptions.canonicalModule]
  · rw [tableOf_eq, List.map_map, List.map_map]
    rfl
  · rw [hvalues, tableOf_eq, tableOf_eq, dedupe_dedupe]

/-- A class from the canonical module takes over the place of an earlier one, and a
denied one has none. -/
example :
    dedupe {} "lib"
      [⟨"Frame", "lib", none, []⟩, ⟨"Hidden", "lib.testing", none, []⟩,
        ⟨"Series", "lib", none, []⟩, ⟨"Frame", "lib.core.frame", none, []⟩] =
      [⟨"Frame", "lib.core.frame", none, []⟩, ⟨"Series", "lib", none, []⟩] := by
  decide

end BindingSynthesis.Dedupe
