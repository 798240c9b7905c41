import BindingSynthesis.Proofs.DeclaredNames
import BindingSynthesis.Proofs.SourceTree

/-!
# BindingSynthesis.Proofs.PackageNames

The package that the sources of a plan declare.

```
library    matplotlib . pyplot                       a path of identifiers
package    wrapweld . generated . matplotlib_pyplot  its segment is one identifier
```

1. The identifiers of a path, joined by underscores, are one identifier
   (`isWord_packageSegment`).
2. Nothing marks a segment that is a keyword.  A segment that was joined is none, for
   no keyword but the bare underscore has an underscore; so the library must be the
   keyword itself (`packageSegment_mem_keywords_iff`).
3. Hence in the usual namespace a package is legal unless the library is named like a
   keyword (`isDeclarable_package_iff`).
-/

namespace BindingSynthesis

open Text

/-- What is no separator is in one of the pieces. -/
theorem exists_mem_segments {separator c : Char} {cs : List Char} (hc : c ∈ cs)
    (hne : c ≠ separator) : ∃ piece ∈ segments separator cs, c ∈ piece := by
  induction cs with
  | nil => cases hc
  | cons d cs ih =>
      rw [segments]
      split
      · next hd =>
          have hmem : c ∈ cs := (List.mem_cons.mp hc).resolve_left fun h => hne (h.trans hd)
          obtain ⟨piece, hpiece, hcpiece⟩ := ih hmem
          exact ⟨piece, List.mem_cons_of_mem _ hpiece, hcpiece⟩
      · cases hcs : segments separator cs with
        | nil => exact absurd hcs (segments_ne_nil separator cs)
        | cons first more =>
            rw [hcs] at ih
            obtain rfl | hmem := List.mem_cons.mp hc
            · exact ⟨_, List.mem_cons_self, List.mem_cons_self⟩
            · obtain ⟨piece, hpiece, hcpiece⟩ := ih hmem
              obtain rfl | hpiece := List.mem_cons.mp hpiece
              · exact ⟨_, List.mem_cons_self, List.mem_cons_of_mem _ hcpiece⟩
              · exact ⟨piece, List.mem_cons_of_mem _ hpiece, hcpiece⟩

/-! ## paths of identifiers -/

namespace HostName

/-- The name is a dotted path of identifiers. -/
def IsPath (name : String) : Prop := ∀ piece ∈ segmentsOf '.' name, IsWord piece.toList

instance : DecidablePred IsWord
  | [] => isFalse id
  -- The characters of the text are checked, and not all characters that there are.
  | c :: more => decidable_of_iff
    ((isLatinLetter c = true ∨ c = '_') ∧ more.all HostName.isWordChar = true) (by simp [IsWord])

instance : DecidablePred IsPath := fun _ => inferInstanceAs (Decidable (∀ _ ∈ _, _))

theorem IsWord.isWordChar {cs : List Char} (h : IsWord cs) : ∀ c ∈ cs, isWordChar c = true := by
  cases cs with
  | nil => exact nofun
  | cons c more =>
      have hstart : HostName.isWordChar c = true := by
        rw [HostName.isWordChar]
        grind [h.1]
      exact List.forall_mem_cons.mpr ⟨hstart, h.2⟩

/-- A path starts like an identifier, and goes on with word characters and dots. -/
theorem IsPath.toList_eq {name : String} (h : IsPath name) :
    ∃ c more, name.toList = c :: more ∧ (isLatinLetter c = true ∨ c = '_') ∧
      ∀ d ∈ more, d = '.' ∨ isWordChar d = true := by
  have hpieces : ∀ piece ∈ segments '.' name.toList, IsWord piece := by
    simpa [IsPath, segmentsOf] using h
  cases hname : name.toList with
  | nil =>
      rw [hname] at hpieces
      exact (hpieces [] List.mem_cons_self).elim
  | cons c more =>
      rw [hname] at hpieces
      refine ⟨c, more, rfl, ?_, fun d hd => ?_⟩
      · -- The first piece starts with the first character, as it is not empty.
        rw [segments] at hpieces
        split at hpieces
        · exact (hpieces [] List.mem_cons_self).elim
        · split at hpieces
          · exact (hpieces [c] List.mem_cons_self).1
          · next first _ _ => exact (hpieces (c :: first) List.mem_cons_self).1
      · refine or_iff_not_imp_left.mpr fun hdot => ?_
        obtain ⟨piece, hpiece, hdpiece⟩ := exists_mem_segments (List.mem_cons_of_mem c hd) hdot
        exact (hpieces piece hpiece).isWordChar d hdpiece

end HostName

open HostName

/-! ## segments of packages -/

namespace Plan

variable {p : Plan}

/-- **The identifiers of a path are joined to one**. -/
theorem isWord_packageSegment (h : IsPath p.library) : IsWord p.packageSegment.toList := by
  obtain ⟨c, more, hlibrary, hstart, hmore⟩ := h.toList_eq
  have hc : c ≠ '.' := by
    rintro rfl
    revert hstart
    decide
  rw [toList_packageSegment, hlibrary, List.map_cons, if_neg hc]
  refine ⟨hstart, fun d hd => ?_⟩
  obtain ⟨e, he, rfl⟩ := List.mem_map.mp hd
  split
  · decide
  · next hne => exact (hmore e he).resolve_left hne

theorem packageSegment_eq_library (h : '.' ∉ p.library.toList) :
    p.packageSegment = p.library := by
  rw [← String.toList_inj, toList_packageSegment]
  refine (List.map_congr_left fun c hc => if_neg ?_).trans (List.map_id _)
  rintro rfl
  exact h hc

/-- **A segment is a keyword** only if the library is named like that. -/
theorem packageSegment_mem_keywords_iff (h : IsPath p.library) :
    p.packageSegment ∈ keywords ↔ p.library ∈ keywords := by
  by_cases hdot : '.' ∈ p.library.toList
  · -- The segment has an underscore, but is not the bare one.
    have hunderscore : '_' ∈ p.packageSegment.toList := by
      rw [toList_packageSegment]
      exact List.mem_map.mpr ⟨'.', hdot, if_pos rfl⟩
    have hbare : ∀ keyword ∈ keywords, '_' ∈ keyword.toList → keyword = "_" := by decide
    have hplain : ∀ keyword ∈ keywords, '.' ∉ keyword.toList := by decide
    refine iff_of_false (fun hkeyword => ?_) fun hkeyword => hplain _ hkeyword hdot
    have hlength := congrArg List.length p.toList_packageSegment
    rw [hbare _ hkeyword hunderscore, List.length_map] at hlength
    obtain ⟨c, more, hlibrary, hstart, -⟩ := h.toList_eq
    rw [hlibrary] at hlength hdot
    have hmore : more = [] := List.eq_nil_of_length_eq_zero (Nat.succ.inj hlength).symm
    rw [hmore, List.mem_singleton] at hdot
    rw [← hdot] at hstart
    revert hstart
    decide
  · rw [packageSegment_eq_library hdot]

end Plan

/-! ## packages -/

namespace Request

variable {r : Request} {p : Plan}

/-- **When a package is legal**: in the usual namespace, the package for a library that
is a dotted path of identifiers has legal segments only, unless the library is named
like a keyword. -/
theorem isDeclarable_package_iff (hparent : r.parentPackage = defaultParentPackage)
    (hpath : IsPath p.library) :
    (∀ segment ∈ segmentsOf '.' (r.targetPackage p), IsDeclarable segment) ↔
      p.library ∉ keywords := by
  have hparents : r.parentSegments = ["wrapweld", "generated"] := by
    rw [parentSegments, hparent]
    decide
  have haround : ∀ segment ∈ ["wrapweld", "generated"], IsDeclarable segment := by
    have hword : ∀ segment ∈ ["wrapweld", "generated"],
        IsWord segment.toList ∧ segment ∉ keywords := by decide
    exact fun segment hsegment => .of_not_keyword (hword _ hsegment).1 (hword _ hsegment).2
  rw [segmentsOf_targetPackage, hparents, List.forall_mem_append, List.forall_mem_singleton,
    and_iff_right haround, ← Plan.packageSegment_mem_keywords_iff hpath]
  exact ⟨IsDeclarable.not_keyword, .of_not_keyword (Plan.isWord_packageSegment hpath)⟩

/-- The package for a library without functions and classes, if nothing is chosen. -/
def usualPackage (library : String) : String :=
  ({ library := library } : Request).targetPackage (Synthesis.synthesize {} ⟨library, [], []⟩)

/-- Two keywords joined by a dot are none. -/
theorem isDeclarable_package_joinedKeywords :
    IsPath "int.native" ∧ usualPackage "int.native" = "wrapweld.generated.int_native" ∧
      ∀ segment ∈ segmentsOf '.' (usualPackage "int.native"), IsDeclarable segment := by
  have hpath : IsPath "int.native" := by decide
  refine ⟨hpath, by decide +kernel, ?_⟩
  have hkeyword : "int.native" ∉ keywords := by decide
  exact (isDeclarable_package_iff (p := Synthesis.synthesize {} ⟨"int.native", [], []⟩)
    rfl hpath).mpr hkeyword

/-- A library named like a keyword is a path, but its package is not legal. -/
theorem not_isDeclarable_package_native :
    IsPath "native" ∧ usualPackage "native" = "wrapweld.generated.native" ∧
      ¬∀ segment ∈ segmentsOf '.' (usualPackage "native"), IsDeclarable segment := by
  refine ⟨by decide, by decide +kernel, fun hlegal => ?_⟩
  have hsegment : "native" ∈ segmentsOf '.' (usualPackage "native") := by decide +kernel
  exact (hlegal "native" hsegment).not_keyword (by decide)

end Request

end BindingSynthesis
