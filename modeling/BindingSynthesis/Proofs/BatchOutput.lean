import BindingSynthesis.Bridge.Documents
import BindingSynthesis.Proofs.BatchProtocol
import BindingSynthesis.Proofs.SourceTree

/-!
# BindingSynthesis.Proofs.BatchOutput

What a batch has written is still there when it ends.

1. A request touches its package only, and if it succeeds its files have the texts
   of its plan (`Steps.frame_intact`).
2. So a list of requests touches their packages only, and files in other packages
   stay as they are (`Chain.frame_intact`).
3. If no two requests share a package, the files of every request that succeeded
   are intact after the batch (`intact_after_generate`).
4. Of two requests that share a package and write their plans, at most one has its
   files intact (`Intact.segment_ne`).
-/

namespace BindingSynthesis

/-! ## documents that name their libraries -/

/-- Every document that was extracted names the library that was asked for. -/
def NamesAsked (events : List Event) : Prop :=
  ∀ library includeOnly d, .extract library includeOnly (.ok d) ∈ events →
    d.library = some library

/-- Each document that the bridge extracts names the library that was asked for. -/
def Bridge.NamesLibraries {σ : Type} (bridge : Bridge (StateM σ)) : Prop :=
  ∀ library includeOnly s s' d, (bridge.extract library includeOnly).run s = (.ok d, s') →
    d.library = some library

/-- A bridge of documents names the libraries if each document names the library it is
kept under. -/
theorem Bridge.namesLibraries_ofDocuments {σ : Type} {texts : List (String × String)}
    (released : Except BridgeError Unit) (h : ∀ entry ∈ texts,
      (MetadataDocument.parse entry.2).map MetadataDocument.library = .ok (some entry.1)) :
    (ofDocuments texts released : Bridge (StateM σ)).NamesLibraries := by
  intro library includeOnly s s' d hrun
  have hanswer := congrArg Prod.fst hrun
  dsimp only [ofDocuments] at hanswer
  cases hlookup : texts.lookup library with
  | none =>
      rw [hlookup] at hanswer
      cases hanswer
  | some text =>
      obtain ⟨_, _, htexts, -⟩ := List.lookup_eq_some_iff.mp hlookup
      have hname := h (library, text) (by simp [htexts])
      rw [hlookup] at hanswer
      change documentOf library text = .ok d at hanswer
      rw [documentOf] at hanswer
      cases hparse : MetadataDocument.parse text with
      | error fault => simp [hparse, Except.mapError] at hanswer
      | ok d' =>
          rw [hparse] at hanswer hname
          cases hanswer
          exact Except.ok.inj hname

namespace Batch

section

variable {σ : Type} {bridge : Bridge (StateM σ)} {sink : Sink (StateM σ)}
  {o : SynthesisOptions} {r : Request} {requests : List Request}

theorem Steps.namesAsked (hbridge : bridge.NamesLibraries) {s s' : σ} {events : List Event}
    {answer : Except RequestError Outcome} (h : Steps o bridge sink r s events answer s') :
    NamesAsked events := by
  intro library includeOnly d hevent
  cases h with
  | blank => cases hevent
  | notExtracted => simp at hevent
  | refused _ hextract =>
      simp only [List.mem_singleton, Event.extract.injEq, Except.ok.injEq] at hevent
      obtain ⟨rfl, rfl, rfl⟩ := hevent
      exact hbridge _ _ _ _ _ hextract
  | notKept _ hextract | kept _ hextract =>
      simp only [List.mem_cons, Event.extract.injEq, Except.ok.injEq, reduceCtorEq,
        List.not_mem_nil, or_false] at hevent
      obtain ⟨rfl, rfl, rfl⟩ := hevent
      exact hbridge _ _ _ _ _ hextract

theorem Chain.namesAsked (hbridge : bridge.NamesLibraries) {s s' : σ}
    {rounds : List (List Event × Outcome)} (h : Chain o bridge sink requests s rounds s') :
    NamesAsked (rounds.flatMap Prod.fst) := by
  induction h with
  | nil => exact fun _ _ _ hevent => nomatch hevent
  | cons hsteps _ ih =>
      intro library includeOnly d hevent
      rw [List.flatMap_cons, List.mem_append] at hevent
      obtain hfirst | hmore := hevent
      · exact hsteps.namesAsked hbridge library includeOnly d hfirst
      · exact ih library includeOnly d hmore

/-- A bridge whose documents always name their libraries names those that a batch
asks for. -/
theorem namesAsked_generate (o : SynthesisOptions) (sink : Sink (StateM σ))
    (hbridge : bridge.NamesLibraries) (requests : List Request) (s : σ) :
    NamesAsked (runTraced (generate o bridge.traced sink.traced requests) [] s).1.2 := by
  obtain ⟨rounds, _, released, _, -, hchain, -, -, htraced⟩ :=
    chain_generate o bridge sink requests s
  rw [htraced]
  intro library includeOnly d hevent
  rw [List.mem_append, List.mem_singleton] at hevent
  obtain hevent | hevent := hevent
  · exact hchain.namesAsked hbridge library includeOnly d hevent
  · cases hevent

end

end Batch

/-! ## one request -/

/-- The bridge leaves the files of the machine beside it alone. -/
structure Bridge.SparesFiles {τ : Type} (bridge : Bridge (StateM (τ × InMemory))) : Prop where
  extract : ∀ library includeOnly s s' answer,
    (bridge.extract library includeOnly).run s = (answer, s') →
      InMemory.Frame (fun _ => False) s.2 s'.2
  release : ∀ s s' answer, bridge.release.run s = (answer, s') →
    InMemory.Frame (fun _ => False) s.2 s'.2

theorem Bridge.sparesFiles_ofDocuments {τ : Type} (texts : List (String × String))
    (released : Except BridgeError Unit) :
    (ofDocuments texts released : Bridge (StateM (τ × InMemory))).SparesFiles where
  extract _ _ s _ _ hrun := by
    cases hrun
    exact .refl _ s.2
  release s _ _ hrun := by
    cases hrun
    exact .refl _ s.2

namespace Batch

variable {o : SynthesisOptions} {e : EmissionOptions} {r : Request}

/-- The plan for a document that names the library of the request is one for that
library. -/
theorem eq_synthesize_of_planOf {d : MetadataDocument} {p : Plan} (hplan : planOf o r d = .ok p)
    (hname : d.library = some r.library) :
    ∃ l : Library, l.name = r.library ∧ p = Synthesis.synthesize o l := by
  obtain ⟨l, hlibrary, rfl⟩ := synthesize_of_planOf hplan
  exact ⟨l, Option.some.inj (hlibrary.symm.trans hname), rfl⟩

/-- If the request succeeded, its files are those of the plan for the document that
was extracted, and each has its text. -/
def Intact (o : SynthesisOptions) (e : EmissionOptions) (events : List Event) (s : InMemory)
    (r : Request) (outcome : Outcome) : Prop :=
  outcome.succeeded = true → ∃ d p,
    .extract r.library r.includeOnly (.ok d) ∈ events ∧ planOf o r d = .ok p ∧
      .persist r p (.ok outcome.files) ∈ events ∧
      outcome.files = (Sink.files e r p).map Prod.fst ∧
      ∀ x ∈ Sink.files e r p, s.tree.read s.here x.1 = .ok (Text.Utf8.encode x.2)

theorem Intact.mono {events more : List Event} {s : InMemory} {outcome : Outcome}
    (h : Intact o e events s r outcome) (hsub : events ⊆ more) : Intact o e more s r outcome := by
  intro hsucceeded
  obtain ⟨d, p, hextract, hplan, hpersist, hfiles⟩ := h hsucceeded
  exact ⟨d, p, hsub hextract, hplan, hsub hpersist, hfiles⟩

/-- **What stays out of the package of a request leaves its files intact**. -/
theorem Intact.of_frame {events : List Event} {s s' : InMemory} {outcome : Outcome}
    {touched : Place → Prop} (h : Intact o e events s r outcome) (hnames : NamesAsked events)
    (hslash : '/' ∉ o.ownerPrefix.toList) (hframe : InMemory.Frame touched s s')
    (hapart : ∀ place, r.IsInside s.here place → ¬touched place) :
    Intact o e events s' r outcome := by
  intro hsucceeded
  obtain ⟨d, p, hextract, hplan, hpersist, hfiles, hreads⟩ := h hsucceeded
  refine ⟨d, p, hextract, hplan, hpersist, hfiles, fun x hx => ?_⟩
  obtain ⟨l, hlibrary, rfl⟩ := eq_synthesize_of_planOf hplan (hnames _ _ _ hextract)
  exact hframe.read (hreads x hx)
    (hapart _ (Sink.isInside_of_isWritten hslash hlibrary ⟨x, hx, rfl⟩))

/-- **Only different packages keep plans apart**: of two libraries that are the same
segment, at most one has its files intact. -/
theorem Intact.segment_ne {events : List Event} {s : InMemory} {r' : Request}
    {outcome outcome' : Outcome} (h : Intact o e events s r outcome)
    (h' : Intact o e events s r' outcome') (hsucceeded : outcome.succeeded = true)
    (hsucceeded' : outcome'.succeeded = true) (hnames : NamesAsked events)
    (hplan : e.writePlan = true) (houtput : r.output = r'.output)
    (hparent : r.parentPackage = r'.parentPackage) (hlibrary : r.library ≠ r'.library) :
    r.segment ≠ r'.segment := by
  intro hsegment
  obtain ⟨d, p, hextract, hplanned, -, -, hreads⟩ := h hsucceeded
  obtain ⟨d', p', hextract', hplanned', -, -, hreads'⟩ := h' hsucceeded'
  obtain ⟨l, hl, rfl⟩ := eq_synthesize_of_planOf hplanned (hnames _ _ _ hextract)
  obtain ⟨l', hl', rfl⟩ := eq_synthesize_of_planOf hplanned' (hnames _ _ _ hextract')
  have hp : (Synthesis.synthesize o l).packageSegment = r.segment :=
    Sink.packageSegment_of_library hl
  have hp' : (Synthesis.synthesize o l').packageSegment = r'.segment :=
    Sink.packageSegment_of_library hl'
  have hdirectory :=
    Sink.packageDirectory_congr houtput hparent (hp.trans (hsegment.trans hp'.symm))
  -- Both plan files have one path, so they have one text, and that tells the library.
  have hread := hreads _ (Sink.planFile_mem_files hplan r _)
  rw [hdirectory, hreads' _ (Sink.planFile_mem_files hplan r' _), Except.ok.injEq,
    Sink.encode_inj] at hread
  have hplans : l'.name = l.name := Sink.library_of_pretty hread
  exact hlibrary (hl.symm.trans (hplans.symm.trans hl'))

section

variable {τ : Type} {bridge : Bridge (StateM (τ × InMemory))} {requests : List Request}

/-- Extracting a document and writing its plan touches the package of the request
only; a plan that was written can be read. -/
theorem frame_reads_persist (hbridge : bridge.SparesFiles) (hslash : '/' ∉ o.ownerPrefix.toList)
    {s s₁ s₂ : τ × InMemory} {d : MetadataDocument} {p : Plan}
    {answer : Except SinkError (List Path)}
    (hextract : (bridge.extract r.library r.includeOnly).run s = (.ok d, s₁))
    (hname : d.library = some r.library) (hplan : planOf o r d = .ok p)
    (hpersist : ((Sink.sourceTree (InMemory.machineBeside τ) e).persist r p).run s₁ =
      (answer, s₂)) :
    InMemory.Frame (r.IsInside s.2.here) s.2 s₂.2 ∧ ∀ paths, answer = .ok paths →
      paths = (Sink.files e r p).map Prod.fst ∧
        ∀ x ∈ Sink.files e r p, s₂.2.tree.read s₂.2.here x.1 = .ok (Text.Utf8.encode x.2) := by
  obtain ⟨l, hlibrary, rfl⟩ := eq_synthesize_of_planOf hplan hname
  have hspared := hbridge.extract _ _ _ _ _ hextract
  obtain ⟨hframe, hreads⟩ := Sink.frame_reads_writePlan e r _ hpersist
  refine ⟨(hspared.mono fun _ h => h.elim).trans (hframe.mono fun place hplace => ?_), ?_⟩
  · rw [hspared.here] at hplace
    exact Sink.isInside_of_isWritten hslash hlibrary hplace
  · intro paths hpaths
    obtain ⟨hfiles, hreads⟩ := hreads paths hpaths
    exact ⟨hfiles, hreads (Sink.nodup_places_files _ hslash e r)⟩

/-- **A request touches its package only**, whether it succeeds or not; if it
succeeds, its files are intact. -/
theorem Steps.frame_intact (hbridge : bridge.SparesFiles) (hslash : '/' ∉ o.ownerPrefix.toList)
    {s s' : τ × InMemory} {events : List Event} {answer : Except RequestError Outcome}
    (h : Steps o bridge (Sink.sourceTree (InMemory.machineBeside τ) e) r s events answer s')
    (hnames : NamesAsked events) :
    InMemory.Frame (r.IsInside s.2.here) s.2 s'.2 ∧
      Intact o e events s'.2 r (outcomeOf r answer) := by
  cases h with
  | blank => exact ⟨.refl _ _, fun h => nomatch h⟩
  | notExtracted _ hextract | refused _ hextract =>
      exact ⟨(hbridge.extract _ _ _ _ _ hextract).mono fun _ h => h.elim, fun h => nomatch h⟩
  | notKept _ hextract hd hpersist =>
      have hname := hnames _ _ _ List.mem_cons_self
      exact ⟨(frame_reads_persist hbridge hslash hextract hname (planOf_eq_ok hd) hpersist).1,
        fun h => nomatch h⟩
  | kept _ hextract hd hpersist =>
      have hname := hnames _ _ _ List.mem_cons_self
      obtain ⟨hframe, hwritten⟩ :=
        frame_reads_persist hbridge hslash hextract hname (planOf_eq_ok hd) hpersist
      exact ⟨hframe, fun _ => ⟨_, _, List.mem_cons_self, planOf_eq_ok hd,
        List.mem_cons_of_mem _ List.mem_cons_self, hwritten _ rfl⟩⟩

/-! ## all requests -/

/-- The packages of the requests are at different places. -/
def PackagesDiffer (here : Place) (requests : List Request) : Prop :=
  requests.Pairwise fun r r' => r.packagePlace here ≠ r'.packagePlace here

/-- Requests with one output root and one namespace have packages of their own
exactly if their libraries are different segments. -/
theorem packagesDiffer_iff (here : Place) {output : Path} {parent : String}
    (houtput : ∀ r ∈ requests, r.output = output)
    (hparent : ∀ r ∈ requests, r.parentPackage = parent)
    (hslash : ∀ r ∈ requests, '/' ∉ r.library.toList) :
    PackagesDiffer here requests ↔ (requests.map Request.segment).Nodup := by
  rw [PackagesDiffer, List.Nodup, List.pairwise_map]
  refine List.Pairwise.iff_of_mem fun {r r'} hr hr' => not_congr ?_
  exact Request.packagePlace_eq_iff here ((houtput r hr).trans (houtput r' hr').symm)
    ((hparent r hr).trans (hparent r' hr').symm) (hslash r hr) (hslash r' hr')

/-- **Requests touch their packages only**; if these differ, each request that
succeeds leaves files that are intact in the end. -/
theorem Chain.frame_intact (hbridge : bridge.SparesFiles) (hslash : '/' ∉ o.ownerPrefix.toList)
    {s s' : τ × InMemory} {rounds : List (List Event × Outcome)}
    (h : Chain o bridge (Sink.sourceTree (InMemory.machineBeside τ) e) requests s rounds s')
    (hnames : ∀ round ∈ rounds, NamesAsked round.1) (hapart : PackagesDiffer s.2.here requests) :
    InMemory.Frame (fun place => ∃ r ∈ requests, r.IsInside s.2.here place) s.2 s'.2 ∧
      List.Forall₂ (fun r round => Intact o e round.1 s'.2 r round.2) requests rounds := by
  induction h with
  | nil => exact ⟨.refl _ _, .nil⟩
  | @cons r more s s₁ s₂ events answer rounds hsteps _ ih =>
      rw [List.forall_mem_cons] at hnames
      obtain ⟨hfirst, hmore⟩ := List.pairwise_cons.mp hapart
      obtain ⟨hframe, hintact⟩ := hsteps.frame_intact hbridge hslash hnames.1
      rw [← hframe.here] at hmore
      obtain ⟨hframes, hintacts⟩ := ih hnames.2 hmore
      refine ⟨(hframe.mono fun place hplace => ⟨r, List.mem_cons_self, hplace⟩).trans
        (hframes.mono ?_), .cons (hintact.of_frame hnames.1 hslash hframes ?_) hintacts⟩
      · rintro place ⟨r', hr', hplace⟩
        rw [hframe.here] at hplace
        exact ⟨r', List.mem_cons_of_mem _ hr', hplace⟩
      · -- A place in both packages would make them one.
        rintro place ⟨name, rfl⟩ ⟨r', hr', name', hplace⟩
        rw [hframe.here] at hplace
        exact hfirst r' hr' (List.cons.inj hplace).2

/-- **What a batch has written is there when it ends**: if the bridge spares files,
each extracted document names the library that was asked for, no name of a wrapper
has a slash and no two requests share a package, then the files of each request
that succeeded are intact in the end, whatever became of the other requests. -/
theorem intact_after_generate {result : Except BatchError Report} {trace : List Event}
    {s s' : τ × InMemory}
    (hrun : runTraced (generate o bridge.traced
      (Sink.sourceTree (InMemory.machineBeside τ) e).traced requests) [] s = ((result, trace), s'))
    (hbridge : bridge.SparesFiles) (hnames : NamesAsked trace)
    (hslash : '/' ∉ o.ownerPrefix.toList) (hapart : PackagesDiffer s.2.here requests) :
    (generate o bridge (Sink.sourceTree (InMemory.machineBeside τ) e) requests).run s =
        (result, s') ∧
      ∃ outcomes s₁ released,
        (runRequests o bridge (Sink.sourceTree (InMemory.machineBeside τ) e) requests).run s =
          (outcomes, s₁) ∧
        result = conclude ⟨outcomes⟩ released ∧
        List.Forall₂ (Intact o e trace s'.2) requests outcomes := by
  obtain ⟨rounds, s₁, released, s₂, hruns, hchain, hrelease, hgenerate, htraced⟩ :=
    chain_generate o bridge (Sink.sourceTree (InMemory.machineBeside τ) e) requests s
  rw [htraced] at hrun
  cases hrun
  have hsub : ∀ round ∈ rounds, round.1 ⊆ rounds.flatMap Prod.fst ++ [.release released] :=
    fun round hround event hevent =>
      List.mem_append_left _ (List.mem_flatMap.mpr ⟨round, hround, hevent⟩)
  obtain ⟨hframe, hintact⟩ := hchain.frame_intact hbridge hslash
    (fun round hround library includeOnly d hevent =>
      hnames library includeOnly d (hsub round hround hevent)) hapart
  -- What the requests leave intact outlives the release, for that touches no file.
  have hspared := hbridge.release _ _ _ hrelease
  refine ⟨hgenerate, rounds.map Prod.snd, s₁, released, hruns, rfl, ?_⟩
  rw [List.forall₂_map_right_iff]
  have hboth := (List.forall₂_and_left _ _).mpr ⟨hsub, hintact.flip⟩
  exact (hboth.imp fun round r ⟨hround, h⟩ =>
    (Intact.mono h hround).of_frame hnames hslash hspared fun _ _ => not_false).flip

end

/-- Bare documents of libraries. -/
def bareDocuments (names : List String) : Bridge (StateM (Unit × InMemory)) :=
  .ofDocuments (names.map fun name => (name, (Library.toJson ⟨name, [], []⟩).compact)) (.ok ())

/-- A request for a library, in a common directory. -/
def requestFor (name : String) : Request :=
  { library := name, output := ⟨"out"⟩, parentPackage := "" }

/-- No file and no directory. -/
def emptyMachine : Unit × InMemory := ((), ⟨⟨[]⟩, [], []⟩)

/-- A batch that asks for libraries where the bare documents of some are known. -/
def bareRun (known asked : List String) :
    (Except BatchError Report × List Event) × (Unit × InMemory) :=
  runTraced (generate {} (bareDocuments known).traced
    (Sink.sourceTree (InMemory.machineBeside Unit) {}).traced (asked.map requestFor)) []
    emptyMachine

/-- The outcomes of that batch. -/
def bareOutcomes (known asked : List String) : List Outcome :=
  ((runRequests {} (bareDocuments known) (Sink.sourceTree (InMemory.machineBeside Unit) {})
    (asked.map requestFor)).run emptyMachine).1

theorem bareRun_eq (known asked : List String) :
    runTraced (generate {} (bareDocuments known).traced
      (Sink.sourceTree (InMemory.machineBeside Unit) {}).traced (asked.map requestFor)) []
        emptyMachine =
      (((bareRun known asked).1.1, (bareRun known asked).1.2), (bareRun known asked).2) := rfl

theorem namesAsked_bareRun (known asked : List String) (h : ∀ name ∈ known,
    (MetadataDocument.parse (Library.toJson ⟨name, [], []⟩).compact).map MetadataDocument.library =
      .ok (some name)) : NamesAsked (bareRun known asked).1.2 := by
  refine namesAsked_generate {} _ (Bridge.namesLibraries_ofDocuments _ ?_) _ _
  intro entry hentry
  obtain ⟨name, hname, rfl⟩ := List.mem_map.mp hentry
  exact h name hname

/-- A request for a library that no document describes fails between two others, whose
files stay. -/
theorem intact_bareLibraries :
    (bareDocuments ["a.b", "c"]).SparesFiles ∧
      NamesAsked (bareRun ["a.b", "c"] ["a.b", "missing", "c"]).1.2 ∧
      '/' ∉ ({} : SynthesisOptions).ownerPrefix.toList ∧
      PackagesDiffer emptyMachine.2.here (["a.b", "missing", "c"].map requestFor) ∧
      (bareOutcomes ["a.b", "c"] ["a.b", "missing", "c"]).map Outcome.succeeded =
        [true, false, true] ∧
      List.Forall₂ (Intact {} {} (bareRun ["a.b", "c"] ["a.b", "missing", "c"]).1.2
          (bareRun ["a.b", "c"] ["a.b", "missing", "c"]).2.2)
        (["a.b", "missing", "c"].map requestFor)
        (bareOutcomes ["a.b", "c"] ["a.b", "missing", "c"]) := by
  have hspared : (bareDocuments ["a.b", "c"]).SparesFiles := Bridge.sparesFiles_ofDocuments _ _
  have hnames : NamesAsked (bareRun ["a.b", "c"] ["a.b", "missing", "c"]).1.2 :=
    namesAsked_bareRun _ _ (by decide +kernel)
  have hslash : '/' ∉ ({} : SynthesisOptions).ownerPrefix.toList := by decide
  have houtput : ∀ r ∈ ["a.b", "missing", "c"].map requestFor, r.output = ⟨"out"⟩ := by decide
  have hparent : ∀ r ∈ ["a.b", "missing", "c"].map requestFor, r.parentPackage = "" := by decide
  have hapart : PackagesDiffer emptyMachine.2.here (["a.b", "missing", "c"].map requestFor) :=
    (packagesDiffer_iff _ houtput hparent (by decide)).mpr (by decide)
  obtain ⟨-, outcomes, _, _, hruns, -, hintact⟩ :=
    intact_after_generate (bareRun_eq ["a.b", "c"] ["a.b", "missing", "c"]) hspared hnames hslash
      hapart
  refine ⟨hspared, hnames, hslash, hapart, by decide +kernel, ?_⟩
  rw [bareOutcomes, hruns]
  exact hintact

/-- Libraries of different names may be the same segment, and then the plan of the
first is lost. -/
theorem not_intact_underscoredLibrary :
    (bareDocuments ["a.b", "a_b"]).SparesFiles ∧
      NamesAsked (bareRun ["a.b", "a_b"] ["a.b", "a_b"]).1.2 ∧
      ["a.b", "a_b"].Nodup ∧
      ¬List.Forall₂ (Intact {} {} (bareRun ["a.b", "a_b"] ["a.b", "a_b"]).1.2
          (bareRun ["a.b", "a_b"] ["a.b", "a_b"]).2.2)
        (["a.b", "a_b"].map requestFor) (bareOutcomes ["a.b", "a_b"] ["a.b", "a_b"]) := by
  have hnames : NamesAsked (bareRun ["a.b", "a_b"] ["a.b", "a_b"]).1.2 :=
    namesAsked_bareRun _ _ (by decide +kernel)
  refine ⟨Bridge.sparesFiles_ofDocuments _ _, hnames, by decide, fun hintact => ?_⟩
  have hsucceeded : (bareOutcomes ["a.b", "a_b"] ["a.b", "a_b"]).map Outcome.succeeded =
      [true, true] := by decide +kernel
  generalize bareOutcomes ["a.b", "a_b"] ["a.b", "a_b"] = outcomes at hintact hsucceeded
  obtain - | ⟨hfirst, - | ⟨hsecond, hnone⟩⟩ := hintact
  cases hnone
  simp only [List.map_cons, List.map_nil, List.cons.injEq, and_true] at hsucceeded
  have hsegment :=
    hfirst.segment_ne hsecond hsucceeded.1 hsucceeded.2 hnames rfl rfl rfl (by decide)
  exact absurd (by decide) hsegment

end Batch

end BindingSynthesis
