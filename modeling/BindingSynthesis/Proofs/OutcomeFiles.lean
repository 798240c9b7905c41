import BindingSynthesis.Bridge.Documents
import BindingSynthesis.Machine.InMemory
import BindingSynthesis.Proofs.BatchProtocol
import BindingSynthesis.Proofs.Places
import BindingSynthesis.Proofs.PlanWriting
import BindingSynthesis.Sink.SourceTree

/-!
# BindingSynthesis.Proofs.OutcomeFiles

What the outcome of a request says about the files that the request has opened.

A file system may fail a call although nothing stands in its way.  So the machine
of this module has a fate for each call to come:

```
done          the call does what it can
refused       it fails and changes nothing
cutOff n      it fails on the way; a write has opened its file by then and leaves
              the first n octets there
```

The machine notes the places of the files that were opened to be written, and these
are the files that were created or overwritten (`Unreliable.Leaves`).

1. Writing the files of a plan opens them in order, and all of them only if it
   succeeds (`Writing.leaves`, `leaves_persist`).
2. The outcome of a success lists the files that were opened.  The outcome of a
   failure lists none, but the first files of its plan may have been opened
   (`Steps.account`).
3. So outcomes tell the truth about each request but those that fail with a file
   open (`told_after_generate`).
-/

namespace BindingSynthesis

/-! ## opened files -/

namespace Tree

variable {t t' t'' : Tree} {here : Place} {p : Path}

/-- The file at a place. -/
def fileAt? (t : Tree) (place : Place) : Option (List UInt8 × Bool) :=
  match t.node? place with
  | some (.file octets executable) => some (octets, executable)
  | _ => none

/-- At these places there are files now, and all others are as they were. -/
structure Opens (opened : List Place) (t t' : Tree) : Prop where
  isSome : ∀ place ∈ opened, (t'.fileAt? place).isSome = true
  eq : ∀ place, place ∉ opened → t'.fileAt? place = t.fileAt? place

namespace Opens

theorem refl (t : Tree) : Opens [] t t := ⟨by simp, fun _ _ => rfl⟩

theorem trans {opened opened' : List Place} (h : Opens opened t t') (h' : Opens opened' t' t'') :
    Opens (opened ++ opened') t t'' where
  isSome place hplace := by
    by_cases hlater : place ∈ opened'
    · exact h'.isSome place hlater
    · rw [h'.eq place hlater]
      exact h.isSome place ((List.mem_append.mp hplace).resolve_right hlater)
  eq place hplace := by
    rw [List.mem_append, not_or] at hplace
    rw [h'.eq place hplace.2, h.eq place hplace.1]

end Opens

theorem opens_put_directory {place : Place} (h : t.node? place = none) :
    Opens [] t (t.put place .directory) := by
  have hroot : place ≠ [] := ne_nil_of_node? (t := t) (by simp [h])
  refine ⟨by simp, fun other _ => ?_⟩
  rw [fileAt?, fileAt?, node?_put hroot]
  by_cases hother : other = place
  · rw [if_pos hother, hother, h]
  · rw [if_neg hother]

theorem opens_put_file {place : Place} (h : t.node? place ≠ some .directory)
    (octets : List UInt8) (executable : Bool) :
    Opens [place] t (t.put place (.file octets executable)) := by
  have hroot : place ≠ [] := ne_nil_of_node? h
  constructor
  · intro other hother
    rw [List.mem_singleton.mp hother, fileAt?, node?_put hroot, if_pos rfl]
    rfl
  · intro other hother
    rw [fileAt?, fileAt?, node?_put hroot, if_neg (by simpa using hother)]

/-- A write that succeeds opens its file. -/
theorem opens_write {octets : List UInt8} (h : t.write here p octets = (.ok (), t')) :
    Opens [p.placeFrom here] t t' := by
  rw [write] at h
  split at h
  · cases h
  · next place hresolve =>
      rw [← place_of_resolve hresolve]
      split at h
      · cases h
      · next hnode =>
          cases h
          exact opens_put_file (by simp [hnode]) _ _
      · next hnode =>
          cases h
          exact opens_put_file (by simp [hnode]) _ _

theorem opens_createDirectory (t : Tree) (here : Place) (p : Path) :
    Opens [] t (t.createDirectory here p).2 := by
  rw [createDirectory]
  split
  · exact .refl t
  · split
    · exact .refl t
    · next hnode => exact opens_put_directory hnode

/-- **Making directories opens no file**, whether it succeeds or not. -/
theorem opens_createDirectories (t : Tree) (here : Place) (p : Path) :
    Opens [] t (t.createDirectories here p).2 :=
  createLineage_keeps Opens.refl (fun _ _ _ h h' => h.trans h')
    (fun t p => opens_createDirectory t here p) t _

end Tree

/-! ## an unreliable machine -/

/-- What becomes of a call that changes files. -/
inductive Fate where
  /-- The call does what it can. -/
  | done
  /-- The call fails and changes nothing. -/
  | refused (fault : MachineFault)
  /-- The call fails on the way, a write after so many octets. -/
  | cutOff (fault : MachineFault) (octets : Nat)

/-- A machine in memory whose calls may fail, beside a state of something else. -/
structure Unreliable (τ : Type) where
  memory : InMemory
  /-- What becomes of the coming calls; those behind them do what they can. -/
  fates : List Fate
  /-- The places of the files that were opened to be written, in order. -/
  opened : List Place
  beside : τ

namespace Unreliable

variable {τ : Type}

/-- Makes directories.  A call that is cut off has made them, for all that is said of
files. -/
def createDirectories (s : Unreliable τ) (p : Path) : Except MachineFault Unit × Unreliable τ :=
  let (answer, tree) := s.memory.tree.createDirectories s.memory.here p
  let after := { s with fates := s.fates.tail }
  match s.fates.headD .done with
  | .done => (answer, { after with memory := { s.memory with tree } })
  | .refused fault => (.error fault, after)
  | .cutOff fault _ => (.error fault, { after with memory := { s.memory with tree } })

/-- Opens a file, notes its place, and leaves these octets there with that answer. -/
def openFile (s : Unreliable τ) (p : Path) (octets : List UInt8)
    (answer : Except MachineFault Unit) : Except MachineFault Unit × Unreliable τ :=
  match s.memory.tree.write s.memory.here p octets with
  | (.error fault, _) => (.error fault, s)
  | (.ok (), tree) => (answer, { s with
      memory := { s.memory with tree }
      opened := s.opened ++ [p.placeFrom s.memory.here] })

/-- Writes a file. -/
def writeText (s : Unreliable τ) (p : Path) (text : String) :
    Except MachineFault Unit × Unreliable τ :=
  let after := { s with fates := s.fates.tail }
  match s.fates.headD .done with
  | .done => after.openFile p (Text.Utf8.encode text) (.ok ())
  | .refused fault => (.error fault, after)
  | .cutOff fault n => after.openFile p ((Text.Utf8.encode text).take n) (.error fault)

/-- The capabilities of the machine. -/
def machine (τ : Type) : Machine (StateM (Unreliable τ)) where
  readText p := fun s => (s.memory.readText p, s)
  exists? p := fun s => (s.memory.exists? p, s)
  createDirectories p := fun s => s.createDirectories p
  writeText p text := fun s => s.writeText p text
  run program arguments := fun s => (s.memory.run program arguments, s)
  findProgram name := fun s => (s.memory.findProgram name, s)

/-- The machine has noted these places, and at these there are files now, all others
being as they were. -/
structure Leaves (opened : List Place) (s s' : Unreliable τ) : Prop where
  here : s'.memory.here = s.memory.here
  noted : s'.opened = s.opened ++ opened
  tree : s.memory.tree.Opens opened s'.memory.tree

namespace Leaves

variable {s s' s'' : Unreliable τ}

theorem refl (s : Unreliable τ) : Leaves [] s s := ⟨rfl, (List.append_nil _).symm, .refl _⟩

theorem trans {opened opened' : List Place} (h : Leaves opened s s') (h' : Leaves opened' s' s'') :
    Leaves (opened ++ opened') s s'' where
  here := h'.here.trans h.here
  noted := by rw [h'.noted, h.noted, List.append_assoc]
  tree := h.tree.trans h'.tree

end Leaves

theorem leaves_createDirectories {s s' : Unreliable τ} {p : Path}
    {answer : Except MachineFault Unit} (h : s.createDirectories p = (answer, s')) :
    Leaves [] s s' := by
  have htree := Tree.opens_createDirectories s.memory.tree s.memory.here p
  rw [createDirectories] at h
  dsimp only at h
  split at h <;> cases h
  · exact ⟨rfl, (List.append_nil _).symm, htree⟩
  · exact ⟨rfl, (List.append_nil _).symm, .refl _⟩
  · exact ⟨rfl, (List.append_nil _).symm, htree⟩

/-- Opening a file fails and changes nothing, or gives the answer that is asked for. -/
theorem leaves_openFile (s : Unreliable τ) (p : Path) (octets : List UInt8)
    (answer : Except MachineFault Unit) :
    (∃ fault, s.openFile p octets answer = (.error fault, s)) ∨
      ((s.openFile p octets answer).1 = answer ∧
        Leaves [p.placeFrom s.memory.here] s (s.openFile p octets answer).2) := by
  obtain ⟨written, tree, hwrite⟩ : ∃ written tree,
      s.memory.tree.write s.memory.here p octets = (written, tree) := ⟨_, _, rfl⟩
  rw [openFile, hwrite]
  cases written with
  | error fault => exact .inl ⟨fault, rfl⟩
  | ok done => exact .inr ⟨rfl, rfl, rfl, Tree.opens_write hwrite⟩

/-- **A write opens its file or leaves all files alone**; if it succeeds, it has
opened its file. -/
theorem leaves_writeText {s s' : Unreliable τ} {p : Path} {text : String}
    {answer : Except MachineFault Unit} (h : s.writeText p text = (answer, s')) :
    ∃ opened, Leaves opened s s' ∧ (opened = [] ∨ opened = [p.placeFrom s.memory.here]) ∧
      (answer = .ok () → opened = [p.placeFrom s.memory.here]) := by
  have hspent : Leaves [] s { s with fates := s.fates.tail } :=
    ⟨rfl, (List.append_nil _).symm, .refl _⟩
  have hopen (octets : List UInt8) (answer : Except MachineFault Unit) :=
    leaves_openFile { s with fates := s.fates.tail } p octets answer
  rw [writeText] at h
  split at h
  · obtain ⟨fault, heq⟩ | ⟨-, hleaves⟩ := hopen (Text.Utf8.encode text) (.ok ())
    · rw [heq] at h
      cases h
      exact ⟨[], hspent, .inl rfl, (nomatch ·)⟩
    · rw [h] at hleaves
      exact ⟨_, hspent.trans hleaves, .inr rfl, fun _ => rfl⟩
  · cases h
    exact ⟨[], hspent, .inl rfl, (nomatch ·)⟩
  · next fault n _ =>
      obtain ⟨fault', heq⟩ | ⟨-, hleaves⟩ := hopen ((Text.Utf8.encode text).take n) (.error fault)
      · rw [heq] at h
        cases h
        exact ⟨[], hspent, .inl rfl, (nomatch ·)⟩
      · rw [h] at hleaves
        exact ⟨_, hspent.trans hleaves, .inr rfl, fun _ => rfl⟩

end Unreliable

/-! ## writing a plan -/

namespace Sink

open Batch Unreliable

variable {τ : Type}

/-- The places of files. -/
def placesOf (here : Place) (paths : List Path) : List Place := paths.map (Path.placeFrom here)

/-- **Files are opened in order**, and all of them if writing them succeeds. -/
theorem Writing.leaves {xs : List (Path × String)} {s s' : Unreliable τ}
    {answer : Except MachineFault Unit} (h : Writing (Unreliable.machine τ) xs s answer s') :
    ∃ opened, Leaves opened s s' ∧ opened <+: placesOf s.memory.here (xs.map Prod.fst) ∧
      (answer = .ok () → opened = placesOf s.memory.here (xs.map Prod.fst)) := by
  induction h with
  | nil s => exact ⟨[], .refl _, List.prefix_refl _, fun _ => rfl⟩
  | failed hwrite =>
      obtain ⟨opened, hleaves, hcases, -⟩ := leaves_writeText hwrite
      refine ⟨opened, hleaves, ?_, (nomatch ·)⟩
      obtain rfl | rfl := hcases
      · exact List.nil_prefix
      · exact List.prefix_append [_] _
  | cons hwrite _ ih =>
      obtain ⟨opened, hleaves, -, hall⟩ := leaves_writeText hwrite
      rw [hall rfl] at hleaves
      obtain ⟨later, hmore, hstart, hrest⟩ := ih
      rw [hleaves.here] at hstart hrest
      refine ⟨_, hleaves.trans hmore, ?_, fun hok => ?_⟩
      · exact (List.prefix_append_right_inj [_]).mpr hstart
      · rw [hrest hok]
        rfl

/-- **Keeping a plan opens its files in order**, and all of them if it succeeds. -/
theorem leaves_persist (e : EmissionOptions) (r : Request) (p : Plan) {s s' : Unreliable τ}
    {answer : Except SinkError (List Path)}
    (hrun : ((sourceTree (Unreliable.machine τ) e).persist r p).run s = (answer, s')) :
    ∃ opened, Leaves opened s s' ∧
      opened <+: placesOf s.memory.here ((files e r p).map Prod.fst) ∧
      ∀ paths, answer = .ok paths →
        paths = (files e r p).map Prod.fst ∧ opened = placesOf s.memory.here paths := by
  cases keeping_persist hrun with
  | notMade hmake =>
      exact ⟨[], leaves_createDirectories hmake, List.nil_prefix, fun _ h => nomatch h⟩
  | notWritten hmake hwriting =>
      have hmade := leaves_createDirectories hmake
      obtain ⟨opened, hleaves, hstart, -⟩ := hwriting.leaves
      rw [hmade.here] at hstart
      exact ⟨opened, hmade.trans hleaves, hstart, fun _ h => nomatch h⟩
  | kept hmake hwriting =>
      have hmade := leaves_createDirectories hmake
      obtain ⟨opened, hleaves, hstart, hall⟩ := hwriting.leaves
      rw [hmade.here] at hstart hall
      refine ⟨opened, hmade.trans hleaves, hstart, ?_⟩
      rintro paths ⟨⟩
      exact ⟨rfl, hall rfl⟩

end Sink

/-! ## requests -/

/-- The bridge opens no file to write it. -/
structure Bridge.OpensNothing {τ : Type} (bridge : Bridge (StateM (Unreliable τ))) : Prop where
  extract : ∀ library includeOnly s s' answer,
    (bridge.extract library includeOnly).run s = (answer, s') → Unreliable.Leaves [] s s'
  release : ∀ s s' answer, bridge.release.run s = (answer, s') → Unreliable.Leaves [] s s'

theorem Bridge.opensNothing_ofDocuments {τ : Type} (texts : List (String × String))
    (released : Except BridgeError Unit) :
    (ofDocuments texts released : Bridge (StateM (Unreliable τ))).OpensNothing where
  extract _ _ s _ _ hrun := by
    cases hrun
    exact .refl s
  release s _ _ hrun := by
    cases hrun
    exact .refl s

namespace Batch

open Unreliable Sink

/-- The files of the outcome are those that were opened. -/
def Told (here : Place) (opened : List Place) (outcome : Outcome) : Prop :=
  ∀ place, place ∈ opened ↔ place ∈ placesOf here outcome.files

/-- What one request of a batch has done. -/
structure Turn where
  events : List Event
  /-- The places of the files that it has opened. -/
  opened : List Place
  outcome : Outcome

/-- What the outcome of a request says about the files that it has opened: a success
lists them in order, and a failure lists none, but if it was its plan that could not
be kept, then the first files of that may have been opened. -/
structure Account (o : SynthesisOptions) (e : EmissionOptions) (here : Place) (r : Request)
    (turn : Turn) : Prop where
  round : Round o r turn.events turn.outcome
  of_success : turn.outcome.succeeded = true → turn.opened = placesOf here turn.outcome.files
  of_failure : turn.outcome.succeeded = false → turn.outcome.files = [] ∧
    (turn.opened = [] ∨ ∃ p fault, .persist r p (.error fault) ∈ turn.events ∧
      turn.opened <+: placesOf here ((files e r p).map Prod.fst))

/-- **A failure with a file open is not told**, and everything else is. -/
theorem Account.told_iff {o : SynthesisOptions} {e : EmissionOptions} {here : Place} {r : Request}
    {turn : Turn} (h : Account o e here r turn) :
    Told here turn.opened turn.outcome ↔ turn.outcome.succeeded = true ∨ turn.opened = [] := by
  cases hsucceeded : turn.outcome.succeeded with
  | true =>
      rw [Told, h.of_success hsucceeded]
      simp
  | false =>
      rw [Told, (h.of_failure hsucceeded).1, List.eq_nil_iff_forall_not_mem]
      simp [placesOf]

section

variable {τ : Type} {o : SynthesisOptions} {e : EmissionOptions} {r : Request}
  {bridge : Bridge (StateM (Unreliable τ))} {requests : List Request}

/-- The requests took these turns, one after the other. -/
inductive Turns (o : SynthesisOptions) (e : EmissionOptions) :
    List Request → Unreliable τ → List Turn → Unreliable τ → Prop where
  | nil (s : Unreliable τ) : Turns o e [] s [] s
  | cons {r : Request} {more : List Request} {s s₁ s₂ : Unreliable τ} {turn : Turn}
    {turns : List Turn} (hleaves : Leaves turn.opened s s₁)
    (haccount : Account o e s.memory.here r turn) (hmore : Turns o e more s₁ turns s₂) :
    Turns o e (r :: more) s (turn :: turns) s₂

/-- Every turn is told, but for those that fail with a file open. -/
theorem Turns.told_iff {s s' : Unreliable τ} {turns : List Turn}
    (h : Turns o e requests s turns s') :
    ∀ turn ∈ turns, Told s.memory.here turn.opened turn.outcome ↔
      turn.outcome.succeeded = true ∨ turn.opened = [] := by
  induction h with
  | nil s => simp
  | cons hleaves haccount _ ih =>
      rw [hleaves.here] at ih
      exact List.forall_mem_cons.mpr ⟨haccount.told_iff, ih⟩

/-- **A request gives account of its files**, whether it succeeds or not. -/
theorem Steps.account (hbridge : bridge.OpensNothing) {s s' : Unreliable τ} {events : List Event}
    {answer : Except RequestError Outcome}
    (h : Steps o bridge (sourceTree (Unreliable.machine τ) e) r s events answer s') :
    ∃ opened, Leaves opened s s' ∧
      Account o e s.memory.here r ⟨events, opened, outcomeOf r answer⟩ := by
  have hround := h.round
  cases h with
  | blank => exact ⟨[], .refl s, hround, (nomatch ·), fun _ => ⟨rfl, .inl rfl⟩⟩
  | notExtracted _ hextract | refused _ hextract =>
      exact ⟨[], hbridge.extract _ _ _ _ _ hextract, hround, (nomatch ·),
        fun _ => ⟨rfl, .inl rfl⟩⟩
  | notKept _ hextract _ hpersist =>
      have hspared := hbridge.extract _ _ _ _ _ hextract
      obtain ⟨opened, hleaves, hstart, -⟩ := leaves_persist e r _ hpersist
      rw [hspared.here] at hstart
      exact ⟨opened, hspared.trans hleaves, hround, (nomatch ·), fun _ => ⟨rfl, .inr ⟨_, _,
        List.mem_cons_of_mem _ List.mem_cons_self, hstart⟩⟩⟩
  | kept _ hextract _ hpersist =>
      have hspared := hbridge.extract _ _ _ _ _ hextract
      obtain ⟨opened, hleaves, -, hall⟩ := leaves_persist e r _ hpersist
      rw [hspared.here] at hall
      exact ⟨opened, hspared.trans hleaves, hround, fun _ => (hall _ rfl).2, (nomatch ·)⟩

/-- **Requests take turns**, and each gives account of its own files. -/
theorem Chain.turns (hbridge : bridge.OpensNothing) {s s' : Unreliable τ}
    {rounds : List (List Event × Outcome)}
    (h : Chain o bridge (sourceTree (Unreliable.machine τ) e) requests s rounds s') :
    ∃ turns : List Turn, turns.map (fun turn => (turn.events, turn.outcome)) = rounds ∧
      Turns o e requests s turns s' := by
  induction h with
  | nil s => exact ⟨[], rfl, .nil s⟩
  | cons hsteps _ ih =>
      obtain ⟨opened, hleaves, haccount⟩ := hsteps.account hbridge
      obtain ⟨turns, hturns, hmore⟩ := ih
      refine ⟨⟨_, opened, _⟩ :: turns, ?_, .cons hleaves haccount hmore⟩
      rw [List.map_cons, hturns]

/-- **Where outcomes tell the truth**: on a machine whose calls may fail in any way,
with a bridge that opens no files, each request of a batch opens files of its own.
If it succeeds, these are the files of its outcome; if it fails, these may be the
first files of a plan, and its outcome lists none.  So the files of an outcome are
those that were opened exactly if the request succeeded or opened no file. -/
theorem told_after_generate (o : SynthesisOptions) (e : EmissionOptions)
    (hbridge : bridge.OpensNothing) (requests : List Request) (s : Unreliable τ) :
    ∃ (turns : List Turn) (s₁ : Unreliable τ) (released : Except BridgeError Unit)
      (s' : Unreliable τ),
      (runRequests o bridge (sourceTree (Unreliable.machine τ) e) requests).run s =
        (turns.map Turn.outcome, s₁) ∧
      (generate o bridge (sourceTree (Unreliable.machine τ) e) requests).run s =
        (conclude ⟨turns.map Turn.outcome⟩ released, s') ∧
      runTraced (generate o bridge.traced (sourceTree (Unreliable.machine τ) e).traced requests)
          [] s =
        ((conclude ⟨turns.map Turn.outcome⟩ released,
          turns.flatMap Turn.events ++ [.release released]), s') ∧
      Turns o e requests s turns s₁ ∧ Leaves [] s₁ s' ∧
      ∀ turn ∈ turns, Told s.memory.here turn.opened turn.outcome ↔
        turn.outcome.succeeded = true ∨ turn.opened = [] := by
  obtain ⟨rounds, s₁, released, s', hruns, hchain, hrelease, hgenerate, htraced⟩ :=
    chain_generate o bridge (sourceTree (Unreliable.machine τ) e) requests s
  obtain ⟨turns, rfl, hturns⟩ := hchain.turns hbridge
  have houtcomes : (turns.map fun turn => (turn.events, turn.outcome)).map Prod.snd =
      turns.map Turn.outcome := List.map_map
  have hevents : (turns.map fun turn => (turn.events, turn.outcome)).flatMap Prod.fst =
      turns.flatMap Turn.events := List.flatMap_map _ _ _
  rw [houtcomes] at hruns hgenerate
  rw [houtcomes, hevents] at htraced
  exact ⟨turns, s₁, released, s', hruns, hgenerate, htraced, hturns,
    hbridge.release _ _ _ hrelease, hturns.told_iff⟩

end

/-! ## a failure with a file open -/

/-- A library with one class. -/
def oneClass : Library := ⟨"lib", [], [⟨"K", "lib", none, []⟩]⟩

/-- The bridge with the document of that library. -/
def oneClassBridge : Bridge (StateM (Unreliable Unit)) :=
  .ofDocuments [("lib", oneClass.toJson.compact)] (.ok ())

/-- The outcomes of requests for that library, and the machine behind them. -/
def oneClassRun (requests : List Request) (s : Unreliable Unit) :
    List Outcome × Unreliable Unit :=
  (runRequests {} oneClassBridge (sourceTree (Unreliable.machine Unit) {}) requests).run s

/-- A request for that library. -/
def oneClassRequest : Request := { library := "lib", output := ⟨"out"⟩ }

/-- A machine that makes a directory and writes a file, and then cuts the next file
off behind three octets. -/
def failingMachine : Unreliable Unit where
  memory := ⟨⟨[]⟩, [], []⟩
  fates := [.done, .done, .cutOff .permissionDenied 3]
  opened := []
  beside := ()

/-- A request that fails with two files open is not told, and that for the same
library after it is. -/
theorem told_failingMachine :
    oneClassBridge.OpensNothing ∧ ∃ (turns : List Turn) (s' : Unreliable Unit),
      oneClassRun [oneClassRequest, oneClassRequest] failingMachine = (turns.map Turn.outcome, s') ∧
      turns.map (fun turn => (turn.outcome.succeeded, turn.outcome.files)) = [(false, []),
        (true, [⟨"out/wrapweld/generated/lib/JLib.java"⟩,
          ⟨"out/wrapweld/generated/lib/JK.java"⟩,
          ⟨"out/wrapweld/generated/lib/bindings.json"⟩])] ∧
      s'.opened.map List.head? = ["JLib.java", "JK.java", "JLib.java", "JK.java",
        "bindings.json"].map some ∧
      Turns {} {} [oneClassRequest, oneClassRequest] failingMachine turns s' ∧
      ∀ turn ∈ turns, Told failingMachine.memory.here turn.opened turn.outcome ↔
        turn.outcome.succeeded = true ∨ turn.opened = [] := by
  have hbridge : oneClassBridge.OpensNothing := Bridge.opensNothing_ofDocuments _ _
  obtain ⟨turns, s₁, -, -, hruns, -, -, hturns, -, htold⟩ :=
    told_after_generate {} {} hbridge [oneClassRequest, oneClassRequest] failingMachine
  have hrun : ((oneClassRun [oneClassRequest, oneClassRequest] failingMachine).1.map
      (fun outcome => (outcome.succeeded, outcome.files)),
      (oneClassRun [oneClassRequest, oneClassRequest] failingMachine).2.opened.map List.head?) =
        ([(false, []), (true, [⟨"out/wrapweld/generated/lib/JLib.java"⟩,
          ⟨"out/wrapweld/generated/lib/JK.java"⟩,
          ⟨"out/wrapweld/generated/lib/bindings.json"⟩])],
        ["JLib.java", "JK.java", "JLib.java", "JK.java", "bindings.json"].map some) := by
    decide +kernel
  obtain ⟨houtcomes, hopened⟩ := Prod.mk.inj hrun
  rw [oneClassRun, hruns] at houtcomes hopened
  rw [List.map_map] at houtcomes
  exact ⟨hbridge, turns, s₁, hruns, houtcomes, hopened, hturns, htold⟩

/-- A machine with nothing but a directory where the class would be written. -/
def blockedMachine : Unreliable Unit where
  memory := ⟨⟨[(["JK.java", "lib", "generated", "wrapweld", "out"], .directory),
    (["lib", "generated", "wrapweld", "out"], .directory),
    (["generated", "wrapweld", "out"], .directory), (["wrapweld", "out"], .directory),
    (["out"], .directory)]⟩, [], []⟩
  fates := []
  opened := []
  beside := ()

/-- A request that fails may leave a new file, although its outcome lists none. -/
theorem not_told_blockedMachine :
    (oneClassRun [oneClassRequest] blockedMachine).1.map
        (fun outcome => (outcome.succeeded, outcome.files)) = [(false, [])] ∧
      (oneClassRun [oneClassRequest] blockedMachine).2.opened =
        [["JLib.java", "lib", "generated", "wrapweld", "out"]] ∧
      blockedMachine.memory.tree.fileAt?
        ["JLib.java", "lib", "generated", "wrapweld", "out"] = none ∧
      ((oneClassRun [oneClassRequest] blockedMachine).2.memory.tree.fileAt?
        ["JLib.java", "lib", "generated", "wrapweld", "out"]).isSome = true ∧
      ¬∀ outcome ∈ (oneClassRun [oneClassRequest] blockedMachine).1,
        Told blockedMachine.memory.here
          (oneClassRun [oneClassRequest] blockedMachine).2.opened outcome := by
  have hrun : ((oneClassRun [oneClassRequest] blockedMachine).1.map
        (fun outcome => (outcome.succeeded, outcome.files)),
      (oneClassRun [oneClassRequest] blockedMachine).2.opened,
      ((oneClassRun [oneClassRequest] blockedMachine).2.memory.tree.fileAt?
        ["JLib.java", "lib", "generated", "wrapweld", "out"]).isSome) =
      ([(false, [])], [["JLib.java", "lib", "generated", "wrapweld", "out"]], true) := by
    decide +kernel
  obtain ⟨houtcomes, hrun'⟩ := Prod.mk.inj hrun
  obtain ⟨hopened, hfile⟩ := Prod.mk.inj hrun'
  refine ⟨houtcomes, hopened, by decide, hfile, fun htold => ?_⟩
  obtain ⟨outcome, hmem, houtcome⟩ :
      ∃ outcome ∈ (oneClassRun [oneClassRequest] blockedMachine).1,
        (outcome.succeeded, outcome.files) = (false, []) := by
    rw [← List.mem_map, houtcomes]
    exact List.mem_singleton_self _
  have hplace := (htold outcome hmem ["JLib.java", "lib", "generated", "wrapweld", "out"]).mp
    (by rw [hopened]; exact List.mem_singleton_self _)
  rw [(Prod.mk.inj houtcome).2] at hplace
  cases hplace

end Batch

end BindingSynthesis
