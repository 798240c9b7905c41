import BindingSynthesis.Machine.InMemory
import BindingSynthesis.Proofs.BatchProtocol
import BindingSynthesis.Proofs.HostNames
import BindingSynthesis.Proofs.JsonText
import BindingSynthesis.Proofs.Places
import BindingSynthesis.Proofs.PlanWriting
import BindingSynthesis.Proofs.WrapperNames
import BindingSynthesis.Sink.SourceTree
import Mathlib.Data.List.Nodup

/-!
# BindingSynthesis.Proofs.SourceTree

What the sink of sources writes, and where.

1. Writing a plan touches the places of its files only, whether it succeeds or not;
   if it does, each file has its text (`frame_reads_writePlan`).
2. The files of a plan lie right in the directory of its package, each under a name
   of its own (`places_files`, `nodup_places_files`).
3. Requests with one output root and one namespace share a package exactly if their
   libraries are the same once dots are underscores (`packagePlace_eq_iff`).
-/

namespace BindingSynthesis

/-! ## a machine beside a state -/

namespace InMemory

/-- A program of the machine, with a state that it does not touch. -/
def beside {τ α : Type} (x : StateM InMemory α) : StateM (τ × InMemory) α := fun s =>
  let (a, files) := x.run s.2
  (a, (s.1, files))

/-- The machine in memory, for programs that keep a state of their own beside it. -/
def machineBeside (τ : Type) : Machine (StateM (τ × InMemory)) where
  readText p := beside (machine.readText p)
  exists? p := beside (machine.exists? p)
  createDirectories p := beside (machine.createDirectories p)
  writeText p text := beside (machine.writeText p text)
  run program arguments := beside (machine.run program arguments)
  findProgram name := beside (machine.findProgram name)

/-- The machine stands where it stood and has what it had, except for the files at
the places that were touched. -/
structure Frame (touched : Place → Prop) (s s' : InMemory) : Prop where
  here : s'.here = s.here
  tree : s.tree.Frame touched s'.tree

namespace Frame

variable {touched : Place → Prop} {s s' s'' : InMemory}

/-- An untouched machine is framed by every set of places. -/
theorem refl (touched : Place → Prop) (s : InMemory) : Frame touched s s := ⟨rfl, .refl _ _⟩

/-- Frames compose, as those of the tree do. -/
theorem trans (h : Frame touched s s') (h' : Frame touched s' s'') : Frame touched s s'' :=
  ⟨h'.here.trans h.here, h.tree.trans h'.tree⟩

/-- More places may be allowed than were touched. -/
theorem mono {touched' : Place → Prop} (h : Frame touched s s')
    (himp : ∀ place, touched place → touched' place) : Frame touched' s s' :=
  ⟨h.here, h.tree.mono himp⟩

/-- A file outside the touched places is read as before. -/
theorem read (h : Frame touched s s') {p : Path} {octets : List UInt8}
    (hread : s.tree.read s.here p = .ok octets) (hplace : ¬touched (p.placeFrom s.here)) :
    s'.tree.read s'.here p = .ok octets := by
  rw [h.here]
  exact h.tree.read hread hplace

end Frame

end InMemory

/-! ## writing a plan -/

namespace Sink

open Batch

variable {τ : Type}

/-- On the machine in memory, writing a text puts its UTF-8 octets in the tree. -/
theorem run_writeText (path : Path) (text : String) (s : τ × InMemory) :
    ((InMemory.machineBeside τ).writeText path text).run s =
      ((s.2.tree.write s.2.here path (Text.Utf8.encode text)).1,
        (s.1, { s.2 with tree := (s.2.tree.write s.2.here path (Text.Utf8.encode text)).2 })) := rfl

/-- Creating directories acts on the tree alone and leaves the working directory. -/
theorem run_createDirectories (path : Path) (s : τ × InMemory) :
    ((InMemory.machineBeside τ).createDirectories path).run s =
      ((s.2.tree.createDirectories s.2.here path).1,
        (s.1, { s.2 with tree := (s.2.tree.createDirectories s.2.here path).2 })) := rfl

/-- A place where one of these files is written. -/
def IsWritten (here : Place) (xs : List (Path × String)) (place : Place) : Prop :=
  ∃ x ∈ xs, place = x.1.placeFrom here

/-- A call touches the place of its file only, and if it succeeds, the file has its
text. -/
theorem frame_read_writeText {path : Path} {text : String} {s s' : τ × InMemory}
    {answer : Except MachineFault Unit}
    (hwrite : ((InMemory.machineBeside τ).writeText path text).run s = (answer, s')) :
    InMemory.Frame (· = path.placeFrom s.2.here) s.2 s'.2 ∧
      (answer = .ok () → s'.2.tree.read s'.2.here path = .ok (Text.Utf8.encode text)) := by
  rw [run_writeText] at hwrite
  obtain ⟨hanswer, rfl⟩ := Prod.mk.inj hwrite
  exact ⟨⟨rfl, Tree.frame_write ..⟩, fun hok => Tree.read_write (hanswer.trans hok)⟩

/-- Whether it succeeds or not, creating directories touches no file. -/
theorem frame_createDirectories {path : Path} {s s' : τ × InMemory}
    {answer : Except MachineFault Unit} (touched : Place → Prop)
    (hmake : ((InMemory.machineBeside τ).createDirectories path).run s = (answer, s')) :
    InMemory.Frame touched s.2 s'.2 := by
  rw [run_createDirectories] at hmake
  obtain ⟨-, rfl⟩ := Prod.mk.inj hmake
  exact ⟨rfl, Tree.frame_createDirectories ..⟩

/-- **Writing files touches their places only**, whether it succeeds or not; if it
does, each file has its text. -/
theorem Writing.frame_reads {xs : List (Path × String)} {s s' : τ × InMemory}
    {answer : Except MachineFault Unit} (h : Writing (InMemory.machineBeside τ) xs s answer s') :
    InMemory.Frame (IsWritten s.2.here xs) s.2 s'.2 ∧
      (answer = .ok () → (xs.map fun x => x.1.placeFrom s.2.here).Nodup →
        ∀ x ∈ xs, s'.2.tree.read s'.2.here x.1 = .ok (Text.Utf8.encode x.2)) := by
  induction h with
  | nil s => exact ⟨.refl _ _, fun _ _ => by simp⟩
  | failed hwrite =>
      obtain ⟨hframe, -⟩ := frame_read_writeText hwrite
      exact ⟨hframe.mono fun place h => ⟨_, List.mem_cons_self, h⟩, (nomatch ·)⟩
  | cons hwrite _ ih =>
      obtain ⟨hfirst, hread⟩ := frame_read_writeText hwrite
      obtain ⟨hrest, hreads⟩ := ih
      rw [hfirst.here] at hrest hreads
      refine ⟨(hfirst.mono fun place h => ⟨_, List.mem_cons_self, h⟩).trans
        (hrest.mono fun place ⟨x, hx, h⟩ => ⟨x, List.mem_cons_of_mem _ hx, h⟩),
        fun hok hnodup => ?_⟩
      rw [List.map_cons, List.nodup_cons] at hnodup
      refine List.forall_mem_cons.mpr ⟨hrest.read (hread rfl) ?_, hreads hok hnodup.2⟩
      rw [hfirst.here]
      rintro ⟨x, hx, hplace⟩
      exact hnodup.1 (hplace ▸ List.mem_map_of_mem hx)

/-- **Writing a plan touches the places of its files only**, whether it succeeds or
not; if it does, each file has its text. -/
theorem frame_reads_writePlan (e : EmissionOptions) (r : Request) (p : Plan) {s s' : τ × InMemory}
    {answer : Except SinkError (List Path)}
    (hrun : ((sourceTree (InMemory.machineBeside τ) e).persist r p).run s = (answer, s')) :
    InMemory.Frame (IsWritten s.2.here (files e r p)) s.2 s'.2 ∧
      ∀ paths, answer = .ok paths → paths = (files e r p).map Prod.fst ∧
        (((files e r p).map fun x => x.1.placeFrom s.2.here).Nodup →
          ∀ x ∈ files e r p, s'.2.tree.read s'.2.here x.1 = .ok (Text.Utf8.encode x.2)) := by
  cases keeping_persist hrun with
  | notMade hmake => exact ⟨frame_createDirectories _ hmake, fun _ h => nomatch h⟩
  | notWritten hmake hwriting =>
      have hmade := frame_createDirectories (IsWritten s.2.here (files e r p)) hmake
      obtain ⟨hframe, -⟩ := hwriting.frame_reads
      rw [hmade.here] at hframe
      exact ⟨hmade.trans hframe, fun _ h => nomatch h⟩
  | kept hmake hwriting =>
      have hmade := frame_createDirectories (IsWritten s.2.here (files e r p)) hmake
      obtain ⟨hframe, hreads⟩ := hwriting.frame_reads
      rw [hmade.here] at hframe hreads
      exact ⟨hmade.trans hframe, fun _ h => ⟨(Except.ok.inj h).symm, hreads rfl⟩⟩

end Sink

/-! ## the names of files -/

section

open Synthesis

/-- The name of a wrapper has no slash, unless the prefix of all names has one. -/
theorem slash_not_mem_name {o : SynthesisOptions} {l : Library} {w : Wrapper}
    (hslash : '/' ∉ o.ownerPrefix.toList) (hw : w ∈ (synthesize o l).wrappers) :
    '/' ∉ w.name.toList := by
  have hword : HostName.isWordChar '/' = false := by decide
  obtain ⟨rest, hname, hrest⟩ := name_of_mem_wrappers hw
  rw [hname, String.toList_append, List.mem_append, not_or]
  exact ⟨hslash, fun h => absurd (hrest _ h) (by simp [hword])⟩

namespace Sink

/-- The names of the files for a plan, in the order of writing. -/
def fileNames (e : EmissionOptions) (p : Plan) : List String :=
  p.wrappers.map Java.fileName ++ if e.writePlan then [planFileName] else []

/-- The files of a plan are those of these names, in the directory of its package. -/
theorem paths_files (e : EmissionOptions) (r : Request) (p : Plan) :
    (files e r p).map Prod.fst =
      (fileNames e p).map fun name => (packageDirectory r p).join ⟨name⟩ := by
  rw [files, fileNames, List.map_append, List.map_append, List.map_map, List.map_map]
  refine congrArg₂ _ rfl ?_
  split <;> rfl

/-- The name of a file is a single step downwards. -/
theorem isPlain_of_mem_fileNames {o : SynthesisOptions} {l : Library} {e : EmissionOptions}
    {name : String} (hslash : '/' ∉ o.ownerPrefix.toList)
    (hname : name ∈ fileNames e (synthesize o l)) :
    '/' ∉ name.toList ∧ name ≠ "" ∧ name ≠ "." ∧ name ≠ ".." := by
  rw [fileNames, List.mem_append] at hname
  obtain hwrapper | hplan := hname
  · obtain ⟨w, hw, rfl⟩ := List.mem_map.mp hwrapper
    refine ⟨by simp [Java.fileName, slash_not_mem_name hslash hw], ?_⟩
    have hlast : (Java.fileName w).toList.getLast? = some 'a' := by simp [Java.fileName]
    refine ⟨?_, ?_, ?_⟩ <;> intro h <;> simp [h] at hlast
  · split at hplan
    · rw [List.mem_singleton.mp hplan]
      decide
    · cases hplan

/-- The wrappers of a plan have distinct names, and so have their files. -/
theorem nodup_fileNames (o : SynthesisOptions) (l : Library) (e : EmissionOptions) :
    (fileNames e (synthesize o l)).Nodup := by
  rw [fileNames, List.nodup_append]
  refine ⟨?_, by split <;> simp, ?_⟩
  · have hending : Function.Injective (· ++ ".java") := fun _ _ h => (String.append_left_inj _).mp h
    have h := List.Nodup.map hending (nodup_names_wrappers o l)
    rwa [List.map_map] at h
  · -- The file of the plan is no Java source.
    rintro name hname other hother rfl
    obtain ⟨w, -, rfl⟩ := List.mem_map.mp hname
    split at hother
    · have hlast := congrArg (fun s : String => s.toList.getLast?) (List.mem_singleton.mp hother)
      simp [Java.fileName, planFileName] at hlast
    · cases hother

end Sink

end

/-! ## segments of packages -/

namespace Plan

variable (p : Plan)

/-- The segment of a plan is the library name with its dots replaced, character by
character. -/
theorem toList_packageSegment :
    p.packageSegment.toList = p.library.toList.map fun c => if c = '.' then '_' else c :=
  String.toList_ofList

/-- No dot is left in it. -/
theorem dot_not_mem_packageSegment : '.' ∉ p.packageSegment.toList := by
  rw [toList_packageSegment, List.mem_map]
  rintro ⟨c, -, hc⟩
  split at hc
  · cases hc
  · contradiction

end Plan

/-- The packages around that of a request. -/
def Request.parentSegments (r : Request) : List String :=
  if r.parentPackage = "" then [] else Text.segmentsOf '.' r.parentPackage

/-- So the target package has exactly one segment behind those of its parent. -/
theorem Request.segmentsOf_targetPackage (r : Request) (p : Plan) :
    Text.segmentsOf '.' (r.targetPackage p) = r.parentSegments ++ [p.packageSegment] := by
  have hlast : Text.segmentsOf '.' p.packageSegment = [p.packageSegment] := by
    rw [Text.segmentsOf, segments_of_not_mem p.dot_not_mem_packageSegment, List.map_singleton,
      String.ofList_toList]
  rw [targetPackage, parentSegments]
  split
  · exact hlast
  · rw [← hlast]
    simp [Text.segmentsOf, segments_append_separator]

/-- The directory of a plan: that of the packages around, and one more step. -/
theorem Sink.packageDirectory_eq (r : Request) (p : Plan) :
    packageDirectory r p = (r.output.joinAll r.parentSegments).join ⟨p.packageSegment⟩ := by
  rw [packageDirectory, Request.segmentsOf_targetPackage, Path.joinAll, List.foldl_append]
  rfl

/-! ## the package of a request -/

namespace Request

/-- The place of the package of a request, if its plan is for its own library. -/
def packagePlace (here : Place) (r : Request) : Place :=
  (Sink.packageDirectory r (Plan.empty r.library)).placeFrom here

/-- The place lies right in the package of the request. -/
def IsInside (here : Place) (r : Request) (place : Place) : Prop :=
  ∃ name, place = name :: r.packagePlace here

/-- The library of a request as a segment of a package. -/
def segment (r : Request) : String := (Plan.empty r.library).packageSegment

/-- The segment of a request is made like that of a plan. -/
theorem toList_segment (r : Request) :
    r.segment.toList = r.library.toList.map fun c => if c = '.' then '_' else c :=
  (Plan.empty r.library).toList_packageSegment

/-- No dot is left in it either. -/
theorem dot_not_mem_segment (r : Request) : '.' ∉ r.segment.toList :=
  (Plan.empty r.library).dot_not_mem_packageSegment

/-- And a slash only where the library name has one. -/
theorem slash_not_mem_segment {r : Request} (h : '/' ∉ r.library.toList) :
    '/' ∉ r.segment.toList := by
  rw [toList_segment, List.mem_map]
  rintro ⟨c, hc, hslash⟩
  split at hslash
  · cases hslash
  · exact h (hslash ▸ hc)

/-- The package of a request is one step below the packages around it. -/
theorem packagePlace_eq (here : Place) {r : Request} (h : '/' ∉ r.library.toList) :
    r.packagePlace here =
      ((r.output.joinAll r.parentSegments).placeFrom here).enter r.segment := by
  have hslash : '/' ∉ (Plan.empty r.library).packageSegment.toList := slash_not_mem_segment h
  rw [packagePlace, Sink.packageDirectory_eq,
    Path.placeFrom_join here _ (Path.isAbsolute_of_not_mem hslash), segmentsOf_of_not_mem hslash]
  rfl

/-- Entering the segment goes one directory down, except for the empty name. -/
theorem enter_segment (r : Request) (place : Place) :
    place.enter r.segment = if r.segment = "" then place else r.segment :: place := by
  have hdot : r.segment ≠ "." := fun e => r.dot_not_mem_segment (by simp [e])
  have hdots : r.segment ≠ ".." := fun e => r.dot_not_mem_segment (by simp [e])
  simp [Place.enter, hdot, hdots]

/-- **Which requests share a package**: of two with one output root and one
namespace, those whose libraries are the same segment. -/
theorem packagePlace_eq_iff (here : Place) {r r' : Request} (houtput : r.output = r'.output)
    (hparent : r.parentPackage = r'.parentPackage) (h : '/' ∉ r.library.toList)
    (h' : '/' ∉ r'.library.toList) :
    r.packagePlace here = r'.packagePlace here ↔ r.segment = r'.segment := by
  rw [packagePlace_eq here h, packagePlace_eq here h', parentSegments, parentSegments, houtput,
    hparent]
  generalize Path.placeFrom here _ = place
  rw [enter_segment, enter_segment]
  constructor
  · intro hplace
    split at hplace <;> split at hplace
    · next hr hr' => rw [hr, hr']
    · exact absurd hplace.symm (List.cons_ne_self _ _)
    · exact absurd hplace (List.cons_ne_self _ _)
    · exact (List.cons.inj hplace).1
  · intro hsegment
    rw [hsegment]

end Request

namespace Sink

/-- The package directory depends on the output, the parent package and the segment only. -/
theorem packageDirectory_congr {r r' : Request} {p p' : Plan} (houtput : r.output = r'.output)
    (hparent : r.parentPackage = r'.parentPackage) (h : p.packageSegment = p'.packageSegment) :
    packageDirectory r p = packageDirectory r' p' := by
  rw [packageDirectory, packageDirectory, Request.targetPackage, Request.targetPackage, houtput,
    hparent, h]

/-- The plan for the library of a request has the segment of the request. -/
theorem packageSegment_of_library {r : Request} {p : Plan} (h : p.library = r.library) :
    p.packageSegment = r.segment := by
  rw [Request.segment, Plan.packageSegment, Plan.packageSegment, Plan.empty, h]

variable {o : SynthesisOptions} {l : Library} {e : EmissionOptions} {r : Request}

/-- **The files of a plan lie right in the directory of its package**, under their
names. -/
theorem places_files (here : Place) (hslash : '/' ∉ o.ownerPrefix.toList) (e : EmissionOptions)
    (r : Request) :
    ((files e r (Synthesis.synthesize o l)).map fun x => x.1.placeFrom here) =
      (fileNames e (Synthesis.synthesize o l)).map
        (· :: (packageDirectory r (Synthesis.synthesize o l)).placeFrom here) := by
  have hpaths := congrArg (List.map (Path.placeFrom here))
    (paths_files e r (Synthesis.synthesize o l))
  rw [List.map_map, List.map_map] at hpaths
  refine hpaths.trans (List.map_congr_left fun name hname => ?_)
  obtain ⟨hplain, hne⟩ := isPlain_of_mem_fileNames hslash hname
  exact Path.placeFrom_join_name here _ hplain hne

/-- Distinct file names in one directory are distinct places. -/
theorem nodup_places_files (here : Place) (hslash : '/' ∉ o.ownerPrefix.toList)
    (e : EmissionOptions) (r : Request) :
    ((files e r (Synthesis.synthesize o l)).map fun x => x.1.placeFrom here).Nodup := by
  rw [places_files here hslash]
  exact List.Nodup.map (fun _ _ h => (List.cons.inj h).1) (nodup_fileNames o l e)

/-- The plan for the library of a request goes to the package of the request. -/
theorem placeFrom_packageDirectory (here : Place) (hlibrary : l.name = r.library) :
    (packageDirectory r (Synthesis.synthesize o l)).placeFrom here = r.packagePlace here := by
  have hsegment : (Synthesis.synthesize o l).packageSegment =
      (Plan.empty r.library).packageSegment := packageSegment_of_library hlibrary
  rw [packageDirectory_congr rfl rfl hsegment]
  rfl

/-- What a request writes lies in the directory of its segment. -/
theorem isInside_of_isWritten {here place : Place} (hslash : '/' ∉ o.ownerPrefix.toList)
    (hlibrary : l.name = r.library)
    (h : IsWritten here (files e r (Synthesis.synthesize o l)) place) : r.IsInside here place := by
  obtain ⟨x, hx, rfl⟩ := h
  have hm := List.mem_map_of_mem (f := fun x : Path × String => x.1.placeFrom here) hx
  rw [places_files here hslash, placeFrom_packageDirectory here hlibrary] at hm
  obtain ⟨name, -, hname⟩ := List.mem_map.mp hm
  exact ⟨name, hname.symm⟩

/-! ## plan files -/

/-- UTF-8 tells any two texts apart. -/
theorem encode_inj {s t : String} : Text.Utf8.encode s = Text.Utf8.encode t ↔ s = t := by
  refine ⟨fun h => ?_, fun h => by rw [h]⟩
  have hbytes : s.toList.utf8Encode = t.toList.utf8Encode := congrArg List.toByteArray h
  rwa [String.utf8Encode_toList, String.utf8Encode_toList, String.toByteArray_inj] at hbytes

/-- The text of a plan tells its library. -/
theorem library_of_pretty {p p' : Plan} (h : p.toJson.pretty = p'.toJson.pretty) :
    p.library = p'.library := by
  have hread := Json.read_pretty p.toJson
  rw [h, Json.read_pretty, Prod.mk.injEq] at hread
  simp only [Plan.toJson, Json.readingAt, Json.membersAt, Json.memberAt, Json.Reading.object.injEq,
    List.cons.injEq, Prod.mk.injEq, Json.Reading.string.injEq, Json.Quoted.mk.injEq] at hread
  obtain ⟨⟨-, ⟨⟨-, hlibrary⟩, -⟩, -⟩, -⟩ := hread
  exact (Option.some.inj hlibrary).symm

/-- With the option set, the pretty plan is one of the files. -/
theorem planFile_mem_files {e : EmissionOptions} (hplan : e.writePlan = true) (r : Request)
    (p : Plan) : ((packageDirectory r p).join ⟨planFileName⟩, p.toJson.pretty) ∈ files e r p := by
  simp [files, hplan]

end Sink

end BindingSynthesis
