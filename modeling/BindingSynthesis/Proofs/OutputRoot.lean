import BindingSynthesis.Proofs.OutcomeFiles
import BindingSynthesis.Proofs.SourceTree

/-!
# BindingSynthesis.Proofs.OutputRoot

Whether the files of a plan lie under the output root of their request.

The path of a file is joined step by step:

```
output root / segments of the namespace / segment of the library / name of the file
```

1. A step stays inside if it is relative and none of its components is `..`.
   Joined by such steps only, a path starts with the text of its root and leads to
   a place at or below that of the root (`Path.Within`).
2. No step has a component `..`: a package is cut at its dots, and the name of a
   file ends with a letter.  So a step leads away only if it is absolute, and then
   it discards all steps before it.
3. In the usual namespace only the segment of the library can be absolute, and it
   is exactly if the name of the library starts with a slash
   (`stepsInside_iff_of_planOf`).
-/

namespace BindingSynthesis

open Text

/-- The characters of a piece are in the text, and none is the separator. -/
theorem mem_and_ne_of_mem_segments {separator : Char} {cs piece : List Char}
    (hpiece : piece ∈ segments separator cs) {c : Char} (hc : c ∈ piece) :
    c ∈ cs ∧ c ≠ separator := by
  induction cs generalizing piece with
  | nil =>
      rw [segments, List.mem_singleton] at hpiece
      rw [hpiece] at hc
      cases hc
  | cons d cs ih =>
      have hlater {other : List Char} (hother : other ∈ segments separator cs) (h : c ∈ other) :
          c ∈ d :: cs ∧ c ≠ separator :=
        ⟨List.mem_cons_of_mem _ (ih hother h).1, (ih hother h).2⟩
      rw [segments] at hpiece
      split at hpiece
      · obtain rfl | hpiece := List.mem_cons.mp hpiece
        · cases hc
        · exact hlater hpiece hc
      · next hd =>
          cases hcs : segments separator cs with
          | nil => exact absurd hcs (segments_ne_nil separator cs)
          | cons first more =>
              rw [hcs] at hpiece hlater
              obtain rfl | hpiece := List.mem_cons.mp hpiece
              · obtain rfl | hc := List.mem_cons.mp hc
                · exact ⟨List.mem_cons_self, hd⟩
                · exact hlater List.mem_cons_self hc
              · exact hlater (List.mem_cons_of_mem _ hpiece) hc

theorem not_mem_of_mem_segmentsOf {separator : Char} {s piece : String}
    (h : piece ∈ segmentsOf separator s) : separator ∉ piece.toList := by
  obtain ⟨cs, hcs, rfl⟩ := List.mem_map.mp h
  rw [String.toList_ofList]
  exact fun hc => (mem_and_ne_of_mem_segments hcs hc).2 rfl

/-! ## steps that stay inside -/

namespace Path

/-- Joined to a root, the path stays inside of it. -/
structure StaysInside (q : Path) : Prop where
  relative : q.isAbsolute = false
  not_parent : ".." ∉ segmentsOf '/' q.text

/-- Without dots, a path stays inside unless it is absolute. -/
theorem staysInside_iff_of_not_mem {s : String} (h : '.' ∉ s.toList) :
    StaysInside ⟨s⟩ ↔ (⟨s⟩ : Path).isAbsolute = false := by
  refine ⟨StaysInside.relative, fun hrelative => ⟨hrelative, fun hparent => h ?_⟩⟩
  obtain ⟨piece, hpiece, hdots⟩ := List.mem_map.mp hparent
  have hdot : '.' ∈ piece := by
    rw [← String.toList_ofList (l := piece), hdots]
    decide
  exact (mem_and_ne_of_mem_segments hpiece hdot).1

/-- A single name stays inside, unless it is that of the parent. -/
theorem staysInside_of_not_mem {s : String} (h : '/' ∉ s.toList) (hne : s ≠ "..") :
    StaysInside ⟨s⟩ where
  relative := isAbsolute_of_not_mem h
  not_parent := by
    rw [segmentsOf_of_not_mem h, List.mem_singleton]
    exact hne.symm

theorem prefix_text_join (p : Path) {q : Path} (hq : q.isAbsolute = false) :
    p.text.toList <+: (p.join q).text.toList := by
  rw [join, if_neg (by simp [hq])]
  split
  · next hlast =>
      rw [List.getLast?_eq_none_iff.mp hlast]
      exact List.nil_prefix
  · rw [String.toList_append]
    exact List.prefix_append _ _
  · rw [String.toList_append, String.toList_append, List.append_assoc]
    exact List.prefix_append _ _

/-- Names other than `..` lead downwards. -/
theorem suffix_foldl_enter {names : List String} (h : ".." ∉ names) (place : Place) :
    place <:+ names.foldl Place.enter place := by
  induction names generalizing place with
  | nil => exact List.suffix_refl place
  | cons name more ih =>
      rw [List.mem_cons, not_or] at h
      have hstep : place <:+ place.enter name := by
        rw [Place.enter]
        split
        · exact List.suffix_refl place
        · rw [if_neg (Ne.symm h.1)]
          exact List.suffix_cons name place
      exact hstep.trans (ih h.2 _)

/-- The path is joined to the root by steps that stay inside. -/
def Within (root q : Path) : Prop :=
  ∃ steps : List String, q = root.joinAll steps ∧ ∀ step ∈ steps, StaysInside ⟨step⟩

namespace Within

variable {root q : Path}

/-- **What is within a root** starts with its text, and leads to a place at or below
its place. -/
theorem prefix_and_suffix (h : root.Within q) :
    root.text.toList <+: q.text.toList ∧ ∀ here, root.placeFrom here <:+ q.placeFrom here := by
  obtain ⟨steps, rfl, hsteps⟩ := h
  induction steps generalizing root with
  | nil => exact ⟨List.prefix_refl _, fun here => List.suffix_refl _⟩
  | cons step more ih =>
      obtain ⟨hstep, hmore⟩ := List.forall_mem_cons.mp hsteps
      have hjoin : root.text.toList <+: (root.join ⟨step⟩).text.toList :=
        prefix_text_join root hstep.relative
      have hplace (here : Place) :
          root.placeFrom here <:+ (root.join ⟨step⟩).placeFrom here := by
        rw [placeFrom_join here root hstep.relative]
        exact suffix_foldl_enter hstep.not_parent _
      obtain ⟨hstart, hend⟩ := ih hmore
      exact ⟨hjoin.trans hstart, fun here => (hplace here).trans (hend here)⟩

end Within

end Path

/-! ## the steps to a file -/

theorem Plan.isAbsolute_packageSegment (p : Plan) :
    (⟨p.packageSegment⟩ : Path).isAbsolute = (⟨p.library⟩ : Path).isAbsolute := by
  rw [Path.isAbsolute, Path.isAbsolute, p.toList_packageSegment, List.head?_map]
  cases hhead : p.library.toList.head? with
  | none => rfl
  | some c =>
      by_cases hc : c = '.'
      · rw [hc]
        rfl
      · rw [Option.map_some, if_neg hc]

namespace Sink

open Synthesis

/-- The steps from the output root to a file of a plan. -/
def stepsTo (r : Request) (p : Plan) (name : String) : List String :=
  segmentsOf '.' (r.targetPackage p) ++ [name]

/-- On the way to the files of a plan, every step stays inside. -/
def StepsInside (e : EmissionOptions) (r : Request) (p : Plan) : Prop :=
  ∀ name ∈ fileNames e p, ∀ step ∈ stepsTo r p name, Path.StaysInside ⟨step⟩

/-- **The files of a plan are joined to the output root**, by the segments of the
package and their names. -/
theorem paths_files_eq_joinAll (e : EmissionOptions) (r : Request) (p : Plan) :
    (files e r p).map Prod.fst =
      (fileNames e p).map fun name => r.output.joinAll (stepsTo r p name) := by
  rw [paths_files]
  refine List.map_congr_left fun name _ => ?_
  rw [stepsTo, Path.joinAll, List.foldl_append]
  rfl

theorem StepsInside.within {e : EmissionOptions} {r : Request} {p : Plan}
    (h : StepsInside e r p) : ∀ path ∈ (files e r p).map Prod.fst, r.output.Within path := by
  intro path hpath
  rw [paths_files_eq_joinAll] at hpath
  obtain ⟨name, hname, rfl⟩ := List.mem_map.mp hpath
  exact ⟨_, rfl, h name hname⟩

/-- **An absolute segment discards the output root**, whatever that is. -/
theorem paths_files_of_isAbsolute (e : EmissionOptions) (r : Request) (p : Plan)
    (h : (⟨p.library⟩ : Path).isAbsolute = true) :
    (files e r p).map Prod.fst =
      (fileNames e p).map fun name => (⟨p.packageSegment⟩ : Path).join ⟨name⟩ := by
  have hdirectory : packageDirectory r p = ⟨p.packageSegment⟩ := by
    rw [packageDirectory_eq]
    exact Path.join_of_isAbsolute (p.isAbsolute_packageSegment.trans h)
  rw [paths_files, hdirectory]

variable {o : SynthesisOptions} {l : Library} {r : Request}

/-- **Which steps stay inside**: all of them, unless a segment of the package is
absolute. -/
theorem stepsInside_iff (e : EmissionOptions) (hslash : '/' ∉ o.ownerPrefix.toList) :
    StepsInside e r (synthesize o l) ↔ ∀ segment ∈ r.parentSegments ++
      [(synthesize o l).packageSegment], (⟨segment⟩ : Path).isAbsolute = false := by
  have hsegment : ∀ segment ∈ r.parentSegments ++ [(synthesize o l).packageSegment],
      Path.StaysInside ⟨segment⟩ ↔ (⟨segment⟩ : Path).isAbsolute = false := by
    intro segment hsegment
    rw [← r.segmentsOf_targetPackage] at hsegment
    exact Path.staysInside_iff_of_not_mem (not_mem_of_mem_segmentsOf hsegment)
  rw [← forall₂_congr hsegment, ← r.segmentsOf_targetPackage]
  constructor
  · intro h segment hsegment
    have hfirst : Java.fileName (libraryWrapper o l).1 ∈ fileNames e (synthesize o l) :=
      List.mem_append_left _ (List.mem_map_of_mem (mem_wrappers_synthesize.mpr (.inl rfl)))
    exact h _ hfirst segment (List.mem_append_left _ hsegment)
  · intro h name hname step hstep
    obtain hstep | hstep := List.mem_append.mp hstep
    · exact h step hstep
    · obtain ⟨hplain, -, -, hne⟩ := isPlain_of_mem_fileNames hslash hname
      rw [List.mem_singleton.mp hstep]
      exact Path.staysInside_of_not_mem hplain hne

/-- In the usual namespace, it depends on the library. -/
theorem stepsInside_iff_of_default (e : EmissionOptions) (hslash : '/' ∉ o.ownerPrefix.toList)
    (hparent : r.parentPackage = defaultParentPackage) :
    StepsInside e r (synthesize o l) ↔ (⟨l.name⟩ : Path).isAbsolute = false := by
  have hsegments : r.parentSegments = ["wrapweld", "generated"] := by
    rw [Request.parentSegments, hparent]
    decide
  have hlibrary : (⟨(synthesize o l).packageSegment⟩ : Path).isAbsolute =
      (⟨l.name⟩ : Path).isAbsolute := (synthesize o l).isAbsolute_packageSegment
  rw [stepsInside_iff e hslash, hsegments, List.forall_mem_append, List.forall_mem_singleton,
    hlibrary]
  exact and_iff_right (by decide)

/-- **Files are opened under the output root** only, whatever becomes of the calls of the
machine. -/
theorem StepsInside.opened {τ : Type} {e : EmissionOptions} {p : Plan} (h : StepsInside e r p)
    {s s' : Unreliable τ} {answer : Except SinkError (List Path)}
    (hrun : ((sourceTree (Unreliable.machine τ) e).persist r p).run s = (answer, s')) :
    ∃ opened, Unreliable.Leaves opened s s' ∧
      ∀ place ∈ opened, r.output.placeFrom s.memory.here <:+ place := by
  obtain ⟨opened, hleaves, hstart, -⟩ := leaves_persist e r p hrun
  refine ⟨opened, hleaves, fun place hplace => ?_⟩
  obtain ⟨path, hpath, rfl⟩ := List.mem_map.mp (hstart.subset hplace)
  exact (h.within path hpath).prefix_and_suffix.2 _

/-- **When files stay under the output root**: in the usual namespace, exactly if the
library of the document does not start with a slash.  Then every path that is
written is within the root, and so is every file that is opened on a machine whose
calls may fail.  Otherwise all of them are joined to the segment of the library, and
the output root is discarded. -/
theorem stepsInside_iff_of_planOf (e : EmissionOptions) {d : MetadataDocument} {p : Plan}
    (hslash : '/' ∉ o.ownerPrefix.toList) (hparent : r.parentPackage = defaultParentPackage)
    (hplan : Batch.planOf o r d = .ok p) :
    ∃ library, d.library = some library ∧
      (StepsInside e r p ↔ (⟨library⟩ : Path).isAbsolute = false) ∧
      ((⟨library⟩ : Path).isAbsolute = false →
        (∀ path ∈ (files e r p).map Prod.fst, r.output.Within path) ∧
        ∀ (τ : Type) (s s' : Unreliable τ) (answer : Except SinkError (List Path)),
          ((sourceTree (Unreliable.machine τ) e).persist r p).run s = (answer, s') →
          ∃ opened, Unreliable.Leaves opened s s' ∧
            ∀ place ∈ opened, r.output.placeFrom s.memory.here <:+ place) ∧
      ((⟨library⟩ : Path).isAbsolute = true → (files e r p).map Prod.fst =
        (fileNames e p).map fun name => (⟨p.packageSegment⟩ : Path).join ⟨name⟩) := by
  obtain ⟨l, hlibrary, rfl⟩ := Batch.synthesize_of_planOf hplan
  have hiff : StepsInside e r (synthesize o l) ↔ (⟨l.name⟩ : Path).isAbsolute = false :=
    stepsInside_iff_of_default e hslash hparent
  refine ⟨l.name, hlibrary, hiff, fun hrelative => ?_,
    paths_files_of_isAbsolute e r (synthesize o l)⟩
  have hinside := hiff.mpr hrelative
  exact ⟨hinside.within, fun τ s s' answer hrun => hinside.opened hrun⟩

/-- A document of a library without functions and classes, and a request for it. -/
def bareDocument (name : String) : MetadataDocument := ⟨some name, none, [], []⟩

def bareRequest (name : String) : Request := { library := name, output := ⟨"out"⟩ }

/-- The plan for that request. -/
def barePlan (name : String) : Plan := synthesize {} ⟨name, [], []⟩

/-- Slashes within the name of a library lead to directories below. -/
theorem within_slashedLibrary :
    Batch.planOf {} (bareRequest "a/b.c") (bareDocument "a/b.c") = .ok (barePlan "a/b.c") ∧
      (files {} (bareRequest "a/b.c") (barePlan "a/b.c")).map Prod.fst =
        [⟨"out/wrapweld/generated/a/b_c/JC.java"⟩,
          ⟨"out/wrapweld/generated/a/b_c/bindings.json"⟩] ∧
      StepsInside {} (bareRequest "a/b.c") (barePlan "a/b.c") ∧
      ∀ path ∈ (files {} (bareRequest "a/b.c") (barePlan "a/b.c")).map Prod.fst,
        (⟨"out"⟩ : Path).Within path := by
  have hplan : Batch.planOf {} (bareRequest "a/b.c") (bareDocument "a/b.c") =
      .ok (barePlan "a/b.c") := by decide +kernel
  obtain ⟨library, hlibrary, hiff, hwithin, -⟩ :=
    stepsInside_iff_of_planOf {} (by decide) rfl hplan
  cases hlibrary
  exact ⟨hplan, by decide +kernel, hiff.mpr (by decide), (hwithin (by decide)).1⟩

/-- A slash in front of the name of a library discards the output root. -/
theorem not_within_absoluteLibrary :
    Batch.planOf {} (bareRequest "/tmp") (bareDocument "/tmp") = .ok (barePlan "/tmp") ∧
      (bareRequest "/tmp").parentPackage = defaultParentPackage ∧
      (files {} (bareRequest "/tmp") (barePlan "/tmp")).map Prod.fst =
        [⟨"/tmp/J_tmp.java"⟩, ⟨"/tmp/bindings.json"⟩] ∧
      ∀ path ∈ (files {} (bareRequest "/tmp") (barePlan "/tmp")).map Prod.fst,
        ¬(⟨"out"⟩ : Path).Within path := by
  have hpaths : (files {} (bareRequest "/tmp") (barePlan "/tmp")).map Prod.fst =
      [⟨"/tmp/J_tmp.java"⟩, ⟨"/tmp/bindings.json"⟩] := by decide +kernel
  refine ⟨by decide +kernel, rfl, hpaths, fun path hpath hwithin => ?_⟩
  have houtside : ∀ path ∈ [(⟨"/tmp/J_tmp.java"⟩ : Path), ⟨"/tmp/bindings.json"⟩],
      ¬"out".toList <+: path.text.toList := by decide
  rw [hpaths] at hpath
  exact houtside path hpath hwithin.prefix_and_suffix.1

end Sink

end BindingSynthesis
