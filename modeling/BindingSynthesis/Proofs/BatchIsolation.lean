import BindingSynthesis.Proofs.BatchBridges

/-!
# BindingSynthesis.Proofs.BatchIsolation

The requests of a batch leave each other alone.

```
requests   before          r         after
outcomes   front           outcome   back
plans      of before       of r      of after
```

1. A bridge that answers by what it is asked has one answer for each request
   (`Bridge.AnswersBy`).  The bridges over a directory and over an interpreter are
   such, as long as the files stay as they are.
2. With the sink in memory, the outcome of a request and the plan that is kept for
   it follow from that answer (`run_runRequest_memory`), so those of a batch are
   listed request by request (`told_eq`).
3. Hence requests have the same outcomes and the same plans in one batch and in two,
   and one that fails changes nothing for the others (`isolated_generate`).
-/

namespace BindingSynthesis

/-! ## bridges that answer by what they are asked -/

/-- What a bridge answers for a library and a list of names. -/
abbrev BridgeAnswers := String → List String → Except BridgeError MetadataDocument

/-- In open states the bridge answers by what it is asked, whatever it was asked
before, and stays open; and its release succeeds. -/
structure Bridge.AnswersBy {σ : Type} (bridge : Bridge (StateM σ)) (isOpen : σ → Prop)
    (answers : BridgeAnswers) : Prop where
  extract : ∀ library includeOnly s, isOpen s → ∃ s', isOpen s' ∧
    (bridge.extract library includeOnly).run s = (answers library includeOnly, s')
  release : ∀ s, isOpen s → ∃ s', bridge.release.run s = (.ok (), s')

namespace Bridge

/-- A guarded bridge is open until its release, if the bridge itself has these answers
and leaves the machine as it is. -/
theorem answersBy_guarded {bridge : Bridge (StateM InMemory)} {files : InMemory}
    {answers : BridgeAnswers}
    (hextract : ∀ library includeOnly,
      (bridge.extract library includeOnly).run files = (answers library includeOnly, files))
    (hrelease : bridge.release.run files = (.ok (), files)) :
    (guarded bridge).besides.AnswersBy (fun s => s = (false, files)) answers where
  extract := by
    rintro library includeOnly s rfl
    refine ⟨(false, files), rfl, ?_⟩
    change ((((bridge.extract library includeOnly).run files).1,
      (false, ((bridge.extract library includeOnly).run files).2)) : _ × (Bool × InMemory)) = _
    rw [hextract]
  release := by
    rintro s rfl
    refine ⟨(true, files), ?_⟩
    change (((bridge.release.run files).1, (true, (bridge.release.run files).2)) :
      _ × (Bool × InMemory)) = _
    rw [hrelease]

/-- The documents of a directory whose files stay as they are. -/
theorem answersBy_ofDirectory (directory : Path) (files : InMemory) :
    (ofDirectory InMemory.machine directory).besides.AnswersBy (fun s => s = (false, files))
      fun library _ => ((readDocument InMemory.machine directory library).run files).1 :=
  answersBy_guarded (fun library _ => Prod.ext rfl (run_readDocument directory library files)) rfl

/-- The output of a script on a machine whose files stay as they are. -/
theorem answersBy_ofInterpreter (interpreter : Path) (script : String) (files : InMemory) :
    (ofInterpreter InMemory.machine interpreter script).besides.AnswersBy
      (fun s => s = (false, files)) fun library includeOnly =>
        answerOf library (files.run interpreter (arguments script library includeOnly)) :=
  answersBy_guarded (fun _ _ => rfl) rfl

end Bridge

namespace Batch

/-! ## requests -/

/-- The plan for a request, or why there is none, where a bridge has these
answers. -/
def planFrom (o : SynthesisOptions) (answers : BridgeAnswers) (r : Request) :
    Except RequestError Plan :=
  if Text.isBlank r.library then .error .blankLibrary
  else match answers r.library r.includeOnly with
    | .error e => .error (.extraction e)
    | .ok d => (planOf o r d).mapError .document

/-- The outcome of a request whose plan goes to no file. -/
def outcomeFrom (o : SynthesisOptions) (answers : BridgeAnswers) (r : Request) : Outcome :=
  outcomeOf r ((planFrom o answers r).map fun p => .ofPlan p [])

/-- What the sink in memory keeps for a request. -/
def keptFrom (o : SynthesisOptions) (answers : BridgeAnswers) (r : Request) : Sink.Stored :=
  (planFrom o answers r).toOption.toList.map fun p => (r, p)

/-- Nothing is kept for a request that failed. -/
theorem keptFrom_eq_nil {o : SynthesisOptions} {answers : BridgeAnswers} {r : Request}
    (h : (outcomeFrom o answers r).succeeded = false) : keptFrom o answers r = [] := by
  rw [outcomeFrom] at h
  rw [keptFrom]
  cases hplan : planFrom o answers r with
  | error e => rfl
  | ok p =>
      rw [hplan] at h
      cases h

/-! ## runs with the sink in memory -/

section

variable {σ α β : Type}

/-- Runs a program on what is kept and the state of a bridge. -/
def runKeeping (x : StateT Sink.Stored (StateM σ) α) (held : Sink.Stored) (s : σ) :
    (α × Sink.Stored) × σ :=
  (x.run held).run s

theorem runKeeping_bind_eq {x : StateT Sink.Stored (StateM σ) α} {held held' : Sink.Stored}
    {s s' : σ} {a : α} (h : runKeeping x held s = ((a, held'), s'))
    (f : α → StateT Sink.Stored (StateM σ) β) :
    runKeeping (x >>= f) held s = runKeeping (f a) held' s' := by
  change runKeeping (f (runKeeping x held s).1.1) (runKeeping x held s).1.2
    (runKeeping x held s).2 = _
  rw [h]

/-- What the bridge does leaves what is kept. -/
theorem runKeeping_lift {x : StateM σ α} {s s' : σ} {a : α} (h : x.run s = (a, s'))
    (held : Sink.Stored) : runKeeping (StateT.lift x) held s = ((a, held), s') := by
  change (((x.run s).1, held), (x.run s).2) = _
  rw [h]

variable {o : SynthesisOptions} {bridge : Bridge (StateM σ)} {isOpen : σ → Prop}
  {answers : BridgeAnswers}

/-- **A request runs by itself**: its outcome and what is kept for it follow from the
answer for it, whatever was done before. -/
theorem run_runRequest_memory (h : bridge.AnswersBy isOpen answers) (r : Request)
    (held : Sink.Stored) {s : σ} (hs : isOpen s) :
    ∃ s', isOpen s' ∧
      runKeeping (runRequest o (bridge.lifted Sink.Stored) Sink.memory r) held s =
        (((planFrom o answers r).map fun p => .ofPlan p [], held ++ keptFrom o answers r), s') := by
  rw [runRequest, keptFrom, planFrom]
  by_cases hblank : Text.isBlank r.library = true
  · refine ⟨s, hs, ?_⟩
    rw [if_pos hblank, if_pos hblank]
    exact congrArg (fun kept => ((_, kept), s)) (List.append_nil held).symm
  · obtain ⟨s', hs', hextract⟩ := h.extract r.library r.includeOnly s hs
    refine ⟨s', hs', ?_⟩
    rw [if_neg hblank, if_neg hblank]
    refine (runKeeping_bind_eq (runKeeping_lift hextract held) _).trans ?_
    cases answers r.library r.includeOnly with
    | error e => exact congrArg (fun kept => ((_, kept), s')) (List.append_nil held).symm
    | ok d =>
        dsimp only
        cases planOf o r d with
        | error e => exact congrArg (fun kept => ((_, kept), s')) (List.append_nil held).symm
        | ok p => rfl

theorem run_runRequests_memory (h : bridge.AnswersBy isOpen answers) (requests : List Request)
    (held : Sink.Stored) {s : σ} (hs : isOpen s) :
    ∃ s', isOpen s' ∧
      runKeeping (runRequests o (bridge.lifted Sink.Stored) Sink.memory requests) held s =
        ((requests.map (outcomeFrom o answers), held ++ requests.flatMap (keptFrom o answers)),
          s') := by
  induction requests generalizing held s with
  | nil => exact ⟨s, hs, congrArg (fun kept => (([], kept), s)) (List.append_nil held).symm⟩
  | cons r more ih =>
      obtain ⟨s₁, hs₁, hrun⟩ := run_runRequest_memory h r held hs
      obtain ⟨s₂, hs₂, hruns⟩ := ih (held ++ keptFrom o answers r) hs₁
      refine ⟨s₂, hs₂, ?_⟩
      rw [runRequests, runKeeping_bind_eq hrun, runKeeping_bind_eq hruns, List.flatMap_cons,
        List.append_assoc]
      rfl

/-! ## batches -/

/-- The outcomes that the result of a batch tells, whether requests failed or not. -/
def outcomes? : Except BatchError Report → Option (List Outcome)
  | .ok report => some report.outcomes
  | .error e => e.report?.map Report.outcomes

theorem outcomes?_conclude (report : Report) :
    outcomes? (conclude report (.ok ())) = some report.outcomes := by
  rw [conclude]
  split <;> rfl

/-- What is told of a batch: the outcomes, if its result has them, and what the sink in
memory holds in the end. -/
def told (o : SynthesisOptions) (bridge : Bridge (StateM σ)) (requests : List Request)
    (held : Sink.Stored) (s : σ) : Option (List Outcome) × Sink.Stored :=
  let ((result, stored), _) :=
    runKeeping (generate o (bridge.lifted Sink.Stored) Sink.memory requests) held s
  (outcomes? result, stored)

/-- **A batch runs request by request**: what is told of it is listed in their
order. -/
theorem told_eq (o : SynthesisOptions) (h : bridge.AnswersBy isOpen answers)
    (requests : List Request) (held : Sink.Stored) {s : σ} (hs : isOpen s) :
    told o bridge requests held s =
      (some (requests.map (outcomeFrom o answers)),
        held ++ requests.flatMap (keptFrom o answers)) := by
  obtain ⟨s₁, hs₁, hruns⟩ := run_runRequests_memory h requests held hs
  obtain ⟨s₂, hrelease⟩ := h.release s₁ hs₁
  have hreleased := runKeeping_lift hrelease (held ++ requests.flatMap (keptFrom o answers))
  have hrun : runKeeping (generate o (bridge.lifted Sink.Stored) Sink.memory requests) held s =
      ((conclude ⟨requests.map (outcomeFrom o answers)⟩ (.ok ()),
        held ++ requests.flatMap (keptFrom o answers)), s₂) := by
    rw [generate, runKeeping_bind_eq hruns]
    exact runKeeping_bind_eq hreleased _
  rw [told, hrun]
  exact congrArg (fun outcomes => (outcomes, _)) (outcomes?_conclude _)

/-- **The requests of a batch leave each other alone**, where the bridge answers by
what it is asked.  Requests have the same outcomes and the same plans in one batch and
in two; and with one request more, the others have the same outcomes, and the same
plans are kept if that one fails. -/
theorem isolated_generate (o : SynthesisOptions) (h : bridge.AnswersBy isOpen answers) :
    (∀ first second, ∃ outcomes₁ stored₁ outcomes₂ stored₂, ∀ held s, isOpen s →
      told o bridge first held s = (some outcomes₁, held ++ stored₁) ∧
      told o bridge second held s = (some outcomes₂, held ++ stored₂) ∧
      told o bridge (first ++ second) held s =
        (some (outcomes₁ ++ outcomes₂), held ++ (stored₁ ++ stored₂))) ∧
    ∀ before r after, ∃ front outcome back stored stored',
      front.length = before.length ∧ (outcome.succeeded = false → stored' = stored) ∧
      ∀ held s, isOpen s →
        told o bridge (before ++ after) held s = (some (front ++ back), held ++ stored) ∧
        told o bridge (before ++ r :: after) held s =
          (some (front ++ outcome :: back), held ++ stored') := by
  constructor
  · intro first second
    refine ⟨_, _, _, _, fun held s hs => ⟨told_eq o h first held hs, told_eq o h second held hs, ?_⟩⟩
    rw [told_eq o h (first ++ second) held hs, List.map_append, List.flatMap_append]
  · intro before r after
    refine ⟨before.map (outcomeFrom o answers), outcomeFrom o answers r,
      after.map (outcomeFrom o answers), (before ++ after).flatMap (keptFrom o answers),
      (before ++ r :: after).flatMap (keptFrom o answers), List.length_map _, fun hfailed => ?_,
      fun held s hs => ⟨?_, ?_⟩⟩
    · rw [List.flatMap_append, List.flatMap_cons, keptFrom_eq_nil hfailed, List.nil_append,
        List.flatMap_append]
    · rw [told_eq o h (before ++ after) held hs, List.map_append]
    · rw [told_eq o h (before ++ r :: after) held hs, List.map_append, List.map_cons]

end

/-- A directory with the bare documents of two libraries. -/
def documentFiles : InMemory where
  tree := ⟨(["meta"], .directory) :: ["a", "b"].map fun name =>
    ([name ++ ".json", "meta"],
      .file (Text.Utf8.encode (Library.toJson ⟨name, [], []⟩).compact) false)⟩
  here := []
  searchPath := []

/-- A batch over that directory. -/
def documentRun (asked : List String) : Option (List Outcome) × Sink.Stored :=
  told {} (Bridge.ofDirectory InMemory.machine ⟨"meta"⟩).besides (asked.map requestFor) []
    (false, documentFiles)

/-- A library without a document between the two. -/
theorem isolated_missingDocument :
    (∃ front outcome back stored, front.length = 1 ∧
      documentRun ["a", "b"] = (some (front ++ back), stored) ∧
      documentRun ["a", "missing", "b"] = (some (front ++ outcome :: back), stored)) ∧
    (documentRun ["a", "missing", "b"]).1.map (List.map Outcome.succeeded) =
      some [true, false, true] ∧
    (documentRun ["a", "missing", "b"]).2.map (fun entry => entry.2.library) = ["a", "b"] := by
  have hsucceeded : (documentRun ["a", "missing", "b"]).1.map (List.map Outcome.succeeded) =
      some [true, false, true] := by decide +kernel
  obtain ⟨front, outcome, back, stored, stored', hlength, hfailed, htold⟩ :=
    (isolated_generate {} (Bridge.answersBy_ofDirectory ⟨"meta"⟩ documentFiles)).2
      [requestFor "a"] (requestFor "missing") [requestFor "b"]
  obtain ⟨hwithout, hwith⟩ := htold [] (false, documentFiles) rfl
  rw [List.nil_append] at hwithout hwith
  change documentRun ["a", "b"] = _ at hwithout
  change documentRun ["a", "missing", "b"] = _ at hwith
  have houtcome : outcome.succeeded = false := by
    obtain ⟨first, rfl⟩ := List.length_eq_one_iff.mp hlength
    rw [hwith] at hsucceeded
    exact (List.cons.inj (List.cons.inj (Option.some.inj hsucceeded)).2).1
  rw [hfailed houtcome] at hwith
  exact ⟨⟨front, outcome, back, stored, hlength, hwithout, hwith⟩, hsucceeded, by decide +kernel⟩

end Batch

end BindingSynthesis
