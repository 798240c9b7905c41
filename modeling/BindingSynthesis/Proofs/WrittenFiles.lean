import BindingSynthesis.Proofs.OutcomeFiles
import BindingSynthesis.Proofs.SourceTree

/-!
# BindingSynthesis.Proofs.WrittenFiles

What a plan that was kept has left among the files.

```
directory / wrapper.java     the source of the wrapper, for each in order
directory / bindings.json    the plan, if it is wanted
```

1. Where calls may fail, a success still means that every write has succeeded, one
   after the other (`Tree.Writes`, `writes_persist`).
2. The names of the files differ, so no write undoes an earlier one
   (`Tree.Writes.reads`).
3. Hence after a success the files of the plan hold their texts, and all other files
   are as they were (`written_of_persist`).
-/

namespace BindingSynthesis

/-! ## writes one after the other -/

namespace Tree

/-- These texts were written to these files, one after the other, and no write failed. -/
inductive Writes (here : Place) : List (Path × String) → Tree → Tree → Prop where
  | nil (t : Tree) : Writes here [] t t
  | cons {path : Path} {text : String} {more : List (Path × String)} {t t' t'' : Tree}
    (hwrite : t.write here path (Text.Utf8.encode text) = (.ok (), t'))
    (hmore : Writes here more t' t'') : Writes here ((path, text) :: more) t t''

namespace Writes

variable {here : Place} {xs : List (Path × String)} {t t' : Tree}

/-- Other files are as they were. -/
theorem opens (h : Writes here xs t t') : Opens (xs.map fun x => x.1.placeFrom here) t t' := by
  induction h with
  | nil t => exact .refl t
  | cons hwrite _ ih => exact (opens_write hwrite).trans ih

theorem frame (h : Writes here xs t t') : Frame (· ∈ xs.map fun x => x.1.placeFrom here) t t' := by
  induction h with
  | nil t => exact .refl _ t
  | @cons path text more t t' t'' hwrite _ ih =>
      have hfirst := frame_write t here path (Text.Utf8.encode text)
      rw [hwrite] at hfirst
      refine (hfirst.mono fun place hplace => ?_).trans (ih.mono fun place hplace => ?_)
      · exact List.mem_cons.mpr (.inl hplace)
      · exact List.mem_cons_of_mem _ hplace

/-- **Each file has its text**, if no two of them are the same. -/
theorem reads (h : Writes here xs t t') (hnodup : (xs.map fun x => x.1.placeFrom here).Nodup)
    {path : Path} {text : String} (hmem : (path, text) ∈ xs) :
    t'.read here path = .ok (Text.Utf8.encode text) := by
  induction h with
  | nil t => cases hmem
  | cons hwrite hmore ih =>
      rw [List.map_cons, List.nodup_cons] at hnodup
      obtain hfirst | hmem := List.mem_cons.mp hmem
      · cases hfirst
        have hread := read_write (congrArg Prod.fst hwrite)
        rw [hwrite] at hread
        exact hmore.frame.read hread hnodup.1
      · exact ih hnodup.2 hmem

end Writes

end Tree

/-! ## successful calls -/

namespace Unreliable

variable {τ : Type} {s s' : Unreliable τ}

/-- **A write that succeeds was not cut off**, so all of its text is there. -/
theorem write_of_writeText {p : Path} {text : String} (h : s.writeText p text = (.ok (), s')) :
    s.memory.tree.write s.memory.here p (Text.Utf8.encode text) = (.ok (), s'.memory.tree) ∧
      s'.memory.here = s.memory.here := by
  rw [writeText] at h
  split at h
  · rw [openFile] at h
    split at h
    · cases h
    · next hwrite =>
        cases h
        exact ⟨hwrite, rfl⟩
  · cases h
  · rw [openFile] at h
    split at h <;> cases h

end Unreliable

namespace Sink

open Batch Synthesis

variable {τ : Type} {s s' : Unreliable τ}

/-- **A run that succeeds** consists of writes that do. -/
theorem Writing.writes {xs : List (Path × String)} {answer : Except MachineFault Unit}
    (h : Writing (Unreliable.machine τ) xs s answer s') (hok : answer = .ok ()) :
    Tree.Writes s.memory.here xs s.memory.tree s'.memory.tree := by
  induction h with
  | nil s => exact .nil _
  | failed hwrite => cases hok
  | cons hwrite _ ih =>
      obtain ⟨htree, hhere⟩ := Unreliable.write_of_writeText hwrite
      have hmore := ih hok
      rw [hhere] at hmore
      exact .cons htree hmore

/-- **Keeping a plan** makes its directory, which opens no file, and writes its files. -/
theorem writes_persist {e : EmissionOptions} {r : Request} {p : Plan} {paths : List Path}
    (hrun : ((sourceTree (Unreliable.machine τ) e).persist r p).run s = (.ok paths, s')) :
    paths = (files e r p).map Prod.fst ∧ ∃ t, s.memory.tree.Opens [] t ∧
      Tree.Writes s.memory.here (files e r p) t s'.memory.tree := by
  cases keeping_persist hrun with
  | kept hmake hwriting =>
      have hmade := Unreliable.leaves_createDirectories hmake
      have hwrites := hwriting.writes rfl
      rw [hmade.here] at hwrites
      exact ⟨rfl, _, hmade.tree, hwrites⟩

/-! ## plans that were kept -/

/-- The plan was written to these paths, each to a file of its own, and nothing else. -/
structure Written (e : EmissionOptions) (r : Request) (p : Plan) (here : Place)
    (paths : List Path) (t t' : Tree) : Prop where
  paths_eq : paths =
    p.wrappers.map (fun w => (packageDirectory r p).join ⟨w.name ++ ".java"⟩) ++
      if e.writePlan then [(packageDirectory r p).join ⟨"bindings.json"⟩] else []
  nodup_paths : paths.Nodup
  nodup_places : (placesOf here paths).Nodup
  sources : ∀ w ∈ p.wrappers, t'.read here ((packageDirectory r p).join ⟨w.name ++ ".java"⟩) =
    .ok (Text.Utf8.encode (Java.source e (r.targetPackage p) w))
  plan : e.writePlan = true → t'.read here ((packageDirectory r p).join ⟨"bindings.json"⟩) =
    .ok (Text.Utf8.encode p.toJson.pretty)
  others : ∀ place ∉ placesOf here paths, t'.fileAt? place = t.fileAt? place

theorem paths_files_eq (e : EmissionOptions) (r : Request) (p : Plan) :
    (files e r p).map Prod.fst =
      p.wrappers.map (fun w => (packageDirectory r p).join ⟨w.name ++ ".java"⟩) ++
        if e.writePlan then [(packageDirectory r p).join ⟨"bindings.json"⟩] else [] := by
  rw [paths_files, fileNames, List.map_append, List.map_map]
  refine congrArg₂ _ rfl ?_
  split <;> rfl

theorem source_mem_files {e : EmissionOptions} {r : Request} {p : Plan} {w : Wrapper}
    (hw : w ∈ p.wrappers) : ((packageDirectory r p).join ⟨w.name ++ ".java"⟩,
      Java.source e (r.targetPackage p) w) ∈ files e r p :=
  List.mem_append_left _ (List.mem_map.mpr ⟨w, hw, rfl⟩)

/-- **What a success leaves**: whatever the machine does to its calls, if a plan is
kept, its wrappers are written in order, and the plan behind them if that is wanted,
each to a file of its own in the directory of the package; these hold their texts, and
all other files are as they were. -/
theorem written_of_persist {o : SynthesisOptions} (l : Library) (e : EmissionOptions) (r : Request)
    (hslash : '/' ∉ o.ownerPrefix.toList) {paths : List Path}
    (hrun : ((sourceTree (Unreliable.machine τ) e).persist r (synthesize o l)).run s =
      (.ok paths, s')) :
    Written e r (synthesize o l) s.memory.here paths s.memory.tree s'.memory.tree := by
  obtain ⟨rfl, t, hmade, hwrites⟩ := writes_persist hrun
  have hplaces : placesOf s.memory.here ((files e r (synthesize o l)).map Prod.fst) =
      (files e r (synthesize o l)).map fun x => x.1.placeFrom s.memory.here := List.map_map
  have hnodup := nodup_places_files (l := l) s.memory.here hslash e r
  have hdistinct : (placesOf s.memory.here ((files e r (synthesize o l)).map Prod.fst)).Nodup :=
    hplaces ▸ hnodup
  refine ⟨paths_files_eq e r _, hdistinct.of_map _, hdistinct, fun w hw => ?_, fun hplan => ?_, ?_⟩
  · exact hwrites.reads hnodup (source_mem_files hw)
  · exact hwrites.reads hnodup (planFile_mem_files hplan r _)
  · rw [hplaces]
    exact (hmade.trans hwrites.opens).eq

/-- A library with two classes of one wrapper name, and one with that of the library. -/
def crowdedLibrary : Library :=
  ⟨"lib", [], [⟨"K$", "lib", none, []⟩, ⟨"K.", "lib", none, []⟩, ⟨"Lib", "lib", none, []⟩]⟩

def crowdedRequest : Request := { library := "lib", output := ⟨"out"⟩, parentPackage := "" }

/-- A machine with a file where a source belongs, which is a program, and another one
beside it. -/
def crowdedMachine : Unreliable Unit where
  memory := ⟨⟨[(["JK_.java", "lib", "out"], .file [1, 2] true),
    (["notes", "lib", "out"], .file [3] false), (["lib", "out"], .directory),
    (["out"], .directory)]⟩, [], []⟩
  fates := []
  opened := []
  beside := ()

/-- What keeping the plan of that library answers there, and the machine behind it. -/
def crowdedRun : Except SinkError (List Path) × Unreliable Unit :=
  ((sourceTree (Unreliable.machine Unit) {}).persist crowdedRequest
    (synthesize {} crowdedLibrary)).run crowdedMachine

def crowdedPaths : List Path :=
  [⟨"out/lib/JLib.java"⟩, ⟨"out/lib/JK_.java"⟩, ⟨"out/lib/bindings.json"⟩]

/-- One of the classes gets a file, and the file beside it is left alone. -/
theorem written_crowdedLibrary : ∃ s', crowdedRun = (.ok crowdedPaths, s') ∧
    Written {} crowdedRequest (synthesize {} crowdedLibrary) crowdedMachine.memory.here crowdedPaths
      crowdedMachine.memory.tree s'.memory.tree ∧
    s'.memory.tree.fileAt? ["notes", "lib", "out"] = some ([3], false) := by
  have hanswer : crowdedRun.1 = .ok crowdedPaths := by decide +kernel
  have hother : (["notes", "lib", "out"] : Place) ∉
      placesOf crowdedMachine.memory.here crowdedPaths := by
    decide +kernel
  have hbefore : crowdedMachine.memory.tree.fileAt? ["notes", "lib", "out"] =
      some ([3], false) := by
    decide
  -- The machine behind the run stays a variable, for nothing should compute it.
  rcases hrun : crowdedRun with ⟨answer, s'⟩
  rw [hrun] at hanswer
  dsimp only at hanswer
  rw [crowdedRun, hanswer] at hrun
  have hwritten := written_of_persist crowdedLibrary {} crowdedRequest (by decide) hrun
  rw [hanswer]
  exact ⟨s', rfl, hwritten, (hwritten.others _ hother).trans hbefore⟩

end Sink

end BindingSynthesis
