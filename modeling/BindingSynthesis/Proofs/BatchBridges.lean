import BindingSynthesis.Bridge.Interpreter
import BindingSynthesis.Bridge.Metadata
import BindingSynthesis.Proofs.BatchOutput

/-!
# BindingSynthesis.Proofs.BatchBridges

The bridges of a batch on the machine in memory.

1. A batch keeps the state of its bridge above that of the machine.  Taken side by
   side, the two states give the same run (`besides_generate`).
2. The bridges over a directory and over an interpreter leave the files of the
   machine alone (`sparesFiles_ofDirectory`, `sparesFiles_ofInterpreter`).
-/

namespace BindingSynthesis

/-! ## states side by side -/

section

variable {τ α β : Type}

/-- A program with a state above the machine, as one with both states side by
side. -/
def besides (x : StateT τ (StateM InMemory) α) : StateM (τ × InMemory) α := fun s =>
  let ((a, t), files) := (x.run s.1).run s.2
  (a, (t, files))

/-- Swapping the two states goes through a sequence of steps. -/
theorem besides_bind (x : StateT τ (StateM InMemory) α) (f : α → StateT τ (StateM InMemory) β) :
    besides (x >>= f) = besides x >>= fun a => besides (f a) := rfl

/-- A step of the memory alone is one beside the state of the bridge. -/
theorem besides_lift (x : StateM InMemory α) :
    besides (StateT.lift x : StateT τ (StateM InMemory) α) = InMemory.beside x := rfl

/-- Steps of the memory in a row may be put beside that state one by one. -/
theorem beside_bind (x : StateM InMemory α) (f : α → StateM InMemory β) :
    (InMemory.beside (x >>= f) : StateM (τ × InMemory) β) =
      InMemory.beside x >>= fun a => InMemory.beside (f a) := rfl

/-- The bridge with its state beside that of the machine. -/
def Bridge.besides (bridge : Bridge (StateT τ (StateM InMemory))) :
    Bridge (StateM (τ × InMemory)) where
  extract library includeOnly := BindingSynthesis.besides (bridge.extract library includeOnly)
  release := BindingSynthesis.besides bridge.release

end

namespace Sink

variable {τ : Type}

/-- The files are written in the same order on either machine. -/
theorem beside_writeAll (xs : List (Path × String)) :
    InMemory.beside (writeAll InMemory.machine xs) = writeAll (InMemory.machineBeside τ) xs := by
  induction xs with
  | nil => rfl
  | cons x xs ih =>
      rw [writeAll, writeAll, beside_bind]
      refine bind_congr fun answer => ?_
      cases answer with
      | error fault => rfl
      | ok done => exact ih

/-- So is the plan with its directory. -/
theorem beside_writePlan (e : EmissionOptions) (r : Request) (p : Plan) :
    InMemory.beside (writePlan InMemory.machine e r p) =
      writePlan (InMemory.machineBeside τ) e r p := by
  rw [writePlan, writePlan, beside_bind]
  refine bind_congr fun answer => ?_
  cases answer with
  | error fault => rfl
  | ok done =>
      dsimp only
      rw [beside_bind, beside_writeAll]
      refine bind_congr fun answer => ?_
      cases answer with
      | error fault => rfl
      | ok done => rfl

/-- The sink does the same whether the state of the bridge is around its own or beside it. -/
theorem besides_persist (e : EmissionOptions) (r : Request) (p : Plan) :
    besides (((sourceTree InMemory.machine e).lifted τ).persist r p) =
      (sourceTree (InMemory.machineBeside τ) e).persist r p :=
  (besides_lift _).trans (beside_writePlan e r p)

end Sink

namespace Batch

variable {τ : Type} (o : SynthesisOptions) (e : EmissionOptions)
  (bridge : Bridge (StateT τ (StateM InMemory)))

/-- A request runs alike on both, since bridge and sink do. -/
theorem besides_runRequest (r : Request) :
    besides (runRequest o bridge ((Sink.sourceTree InMemory.machine e).lifted τ) r) =
      runRequest o bridge.besides (Sink.sourceTree (InMemory.machineBeside τ) e) r := by
  rw [runRequest, runRequest]
  split
  · rfl
  · rw [besides_bind]
    refine bind_congr fun answer => ?_
    cases answer with
    | error fault => rfl
    | ok d =>
        dsimp only
        cases planOf o r d with
        | error fault => rfl
        | ok p =>
            dsimp only
            rw [besides_bind, Sink.besides_persist]
            refine bind_congr fun answer => ?_
            cases answer with
            | error fault => rfl
            | ok files => rfl

/-- And so does a list of requests, one after the other. -/
theorem besides_runRequests (requests : List Request) :
    besides (runRequests o bridge ((Sink.sourceTree InMemory.machine e).lifted τ) requests) =
      runRequests o bridge.besides (Sink.sourceTree (InMemory.machineBeside τ) e) requests := by
  induction requests with
  | nil => rfl
  | cons r more ih =>
      rw [runRequests, runRequests, besides_bind, besides_runRequest]
      refine bind_congr fun answer => ?_
      rw [besides_bind, ih]
      rfl

/-- **A batch runs the same with its states side by side**. -/
theorem besides_generate (requests : List Request) :
    besides (generate o bridge ((Sink.sourceTree InMemory.machine e).lifted τ) requests) =
      generate o bridge.besides (Sink.sourceTree (InMemory.machineBeside τ) e) requests := by
  rw [generate, generate, besides_bind, besides_runRequests]
  rfl

end Batch

namespace Bridge

/-- A guarded bridge leaves the files alone if the bridge itself leaves the machine
as it is. -/
theorem sparesFiles_guarded {bridge : Bridge (StateM InMemory)}
    (hextract : ∀ library includeOnly files,
      ((bridge.extract library includeOnly).run files).2 = files)
    (hrelease : ∀ files, (bridge.release.run files).2 = files) :
    (guarded bridge).besides.SparesFiles where
  extract := by
    rintro library includeOnly ⟨closed, files⟩ s' answer hrun
    cases closed with
    | true =>
        cases hrun
        exact .refl _ _
    | false =>
        cases hrun
        change InMemory.Frame _ files ((bridge.extract library includeOnly).run files).2
        rw [hextract]
        exact .refl _ _
  release := by
    rintro ⟨closed, files⟩ s' answer hrun
    cases closed with
    | true =>
        cases hrun
        exact .refl _ _
    | false =>
        cases hrun
        change InMemory.Frame _ files (bridge.release.run files).2
        rw [hrelease]
        exact .refl _ _

/-- Reading a document leaves the machine as it is. -/
theorem run_readDocument (directory : Path) (library : String) (files : InMemory) :
    ((readDocument InMemory.machine directory library).run files).2 = files := by
  have hexists : (InMemory.machine.exists? (documentPath directory library)).run files =
      (files.exists? (documentPath directory library), files) := rfl
  have hread : (InMemory.machine.readText (documentPath directory library)).run files =
      (files.readText (documentPath directory library), files) := rfl
  rw [readDocument, Batch.run_bind_eq hexists]
  split
  · rw [Batch.run_bind_eq hread]
    cases files.readText (documentPath directory library) <;> rfl
  · rfl

/-- The bridge to a directory only reads, so it spares every file. -/
theorem sparesFiles_ofDirectory (directory : Path) :
    (ofDirectory InMemory.machine directory).besides.SparesFiles :=
  sparesFiles_guarded (fun library _ => run_readDocument directory library) fun _ => rfl

/-- Nor does starting an interpreter change a file of the machine in memory. -/
theorem sparesFiles_ofInterpreter (interpreter : Path) (script : String) :
    (ofInterpreter InMemory.machine interpreter script).besides.SparesFiles :=
  sparesFiles_guarded (fun _ _ _ => rfl) fun _ => rfl

end Bridge

end BindingSynthesis
