import BindingSynthesis.Batch.Run
import Mathlib.Data.List.Forall2

/-!
# BindingSynthesis.Proofs.BatchProtocol

What a batch asks of its bridge and its sink, and in which order.

The bridge and the sink are arbitrary machines on one state.  Traced, they note
every call together with its answer.  The trace of a batch is

```
round of the first request, …, round of the last request, release
```

1. A round is one of five: nothing, an extraction that fails, an extraction whose
   document is refused, or an extraction and a plan that is kept or not
   (`Round`).
2. A request runs one round (`steps_runRequest`), so a list of requests runs one
   round after the other (`chain_runRequests`).
3. The outcomes are those of the rounds, and the result is decided by them and by
   the release (`follows_generate`).
-/

namespace BindingSynthesis

/-! ## traces -/

/-- A call of a bridge or a sink with its answer. -/
inductive Event where
  | extract (library : String) (includeOnly : List String)
      (answer : Except BridgeError MetadataDocument)
  | persist (r : Request) (p : Plan) (answer : Except SinkError (List Path))
  | release (answer : Except BridgeError Unit)

/-- The call of the bridge, if the event is one. -/
def Event.bridgeCall? : Event → Option BridgeCall
  | .extract library includeOnly _ => some (.extract library includeOnly)
  | .persist .. => none
  | .release _ => some .release

/-- What a sink is asked to keep, if the event is one of a sink. -/
def Event.persisted? : Event → Option (Request × Plan)
  | .persist r p _ => some (r, p)
  | _ => none

section

variable {m : Type → Type} [Monad m]

/-- Runs a call and notes it with its answer. -/
def noted {α : Type} (call : m α) (event : α → Event) : StateT (List Event) m α := do
  let answer ← StateT.lift call
  modify (· ++ [event answer])
  pure answer

/-- The bridge, noting what it is asked and what it answers. -/
def Bridge.traced (b : Bridge m) : Bridge (StateT (List Event) m) where
  extract library includeOnly :=
    noted (b.extract library includeOnly) (.extract library includeOnly)
  release := noted b.release .release

/-- The sink, noting what it is asked and what it answers. -/
def Sink.traced (s : Sink m) : Sink (StateT (List Event) m) where
  persist r p := noted (s.persist r p) (.persist r p)

end

/-! ## rounds -/

namespace Batch

/-- What one request does, and its outcome. -/
inductive Round (o : SynthesisOptions) (r : Request) : List Event → Outcome → Prop where
  /-- A blank library is refused before the bridge is asked. -/
  | blank (h : Text.isBlank r.library = true) :
    Round o r [] (.ofFailure r.library RequestError.blankLibrary.message)
  | notExtracted (h : Text.isBlank r.library = false) (e : BridgeError) :
    Round o r [.extract r.library r.includeOnly (.error e)]
      (.ofFailure r.library (RequestError.extraction e).message)
  | refused (h : Text.isBlank r.library = false) (d : MetadataDocument) (e : DocumentError)
      (hd : Library.ofDocument d = .error e) :
    Round o r [.extract r.library r.includeOnly (.ok d)]
      (.ofFailure r.library (RequestError.document e).message)
  | notKept (h : Text.isBlank r.library = false) (d : MetadataDocument) (l : Library)
      (hd : Library.ofDocument d = .ok l) (e : SinkError) :
    Round o r
      [.extract r.library r.includeOnly (.ok d),
        .persist r (Synthesis.synthesize o (l.retainAllowed r.includeOnly)) (.error e)]
      (.ofFailure r.library (RequestError.persist e).message)
  | kept (h : Text.isBlank r.library = false) (d : MetadataDocument) (l : Library)
      (hd : Library.ofDocument d = .ok l) (files : List Path) :
    Round o r
      [.extract r.library r.includeOnly (.ok d),
        .persist r (Synthesis.synthesize o (l.retainAllowed r.includeOnly)) (.ok files)]
      (.ofPlan (Synthesis.synthesize o (l.retainAllowed r.includeOnly)) files)

/-- The request went through: its library is not blank, the extraction gave a
document that describes a library, and the plan for that was kept. -/
def WentThrough (o : SynthesisOptions) (r : Request) (events : List Event) : Prop :=
  Text.isBlank r.library = false ∧ ∃ d l files, Library.ofDocument d = .ok l ∧
    .extract r.library r.includeOnly (.ok d) ∈ events ∧
      .persist r (Synthesis.synthesize o (l.retainAllowed r.includeOnly)) (.ok files) ∈ events

/-- The calls that a bridge gets for a request. -/
def extractCalls (r : Request) : List BridgeCall :=
  if Text.isBlank r.library then [] else [.extract r.library r.includeOnly]

/-- What a sink is asked to keep for a request: the plan of the document that was
extracted, if it describes a library. -/
def persistCalls (o : SynthesisOptions) (r : Request) (events : List Event) :
    List (Request × Plan) :=
  events.filterMap fun
    | .extract _ _ (.ok d) => (planOf o r d).toOption.map fun p => (r, p)
    | _ => none

/-- A readable document is synthesized after the allow list has gone over it. -/
theorem planOf_eq_ok {o : SynthesisOptions} {r : Request} {d : MetadataDocument} {l : Library}
    (h : Library.ofDocument d = .ok l) :
    planOf o r d = .ok (Synthesis.synthesize o (l.retainAllowed r.includeOnly)) := by
  rw [planOf, h]
  rfl

/-- The error of an unreadable document is the error of the request. -/
theorem planOf_eq_error {o : SynthesisOptions} {r : Request} {d : MetadataDocument}
    {e : DocumentError} (h : Library.ofDocument d = .error e) : planOf o r d = .error e := by
  rw [planOf, h]
  rfl

/-- A plan is that of a library with the name that the document gives. -/
theorem synthesize_of_planOf {o : SynthesisOptions} {r : Request} {d : MetadataDocument} {p : Plan}
    (h : planOf o r d = .ok p) :
    ∃ l : Library, d.library = some l.name ∧ p = Synthesis.synthesize o l := by
  rw [planOf, Library.ofDocument] at h
  split at h
  · cases h
  · cases h
  · next name _ hname =>
      split at h
      · cases h
      · exact ⟨_, hname, (Except.ok.inj h).symm⟩

namespace Round

variable {o : SynthesisOptions} {r : Request} {events : List Event} {outcome : Outcome}

/-- Of the bridge, a round asks for the one extraction of its request, and not even that
for a blank name. -/
theorem bridgeCalls (h : Round o r events outcome) :
    events.filterMap Event.bridgeCall? = extractCalls r := by
  cases h with
  | blank hb => rw [extractCalls, if_pos hb]; rfl
  | notExtracted hb | refused hb | notKept hb | kept hb =>
      rw [extractCalls, if_neg (by simp [hb])]
      rfl

/-- The sink is called with the plan made from what the bridge answered, or not at all. -/
theorem persistCalls_eq (h : Round o r events outcome) :
    events.filterMap Event.persisted? = persistCalls o r events := by
  cases h with
  | blank hb => rfl
  | notExtracted hb e => rfl
  | refused hb d e hd =>
      simp only [persistCalls, List.filterMap_cons, planOf_eq_error hd]
      rfl
  | notKept hb d l hd | kept hb d l hd =>
      simp only [persistCalls, List.filterMap_cons, planOf_eq_ok hd]
      rfl

/-- A round has the outcome of a success exactly if the request went through. -/
theorem succeeded_iff (h : Round o r events outcome) :
    outcome.succeeded = true ↔ WentThrough o r events := by
  cases h with
  | blank hb => simp [Outcome.ofFailure, WentThrough]
  | notExtracted hb e => simp [Outcome.ofFailure, WentThrough]
  | refused hb d e hd => simp [Outcome.ofFailure, WentThrough]
  | notKept hb d l hd e => simp [Outcome.ofFailure, WentThrough]
  | kept hb d l hd files =>
      refine ⟨fun _ => ⟨hb, d, l, files, hd, ?_, ?_⟩, fun _ => rfl⟩
      · exact List.mem_cons_self
      · exact List.mem_cons_of_mem _ List.mem_cons_self

end Round

/-! ## running and tracing -/

section

variable {σ α β : Type}

/-- A run goes on from the state where its first part stopped. -/
theorem run_bind_eq {x : StateM σ α} {s s' : σ} {a : α} (h : x.run s = (a, s'))
    (f : α → StateM σ β) : (x >>= f).run s = (f a).run s' := by
  change (f (x.run s).1).run (x.run s).2 = _
  rw [h]

/-- Runs a traced program on a log and a state. -/
def runTraced (x : StateT (List Event) (StateM σ) α) (log : List Event) (s : σ) :
    (α × List Event) × σ :=
  (x.run log).run s

/-- A traced run goes on with the log as well. -/
theorem runTraced_bind_eq {x : StateT (List Event) (StateM σ) α} {log log' : List Event} {s s' : σ}
    {a : α} (h : runTraced x log s = ((a, log'), s')) (f : α → StateT (List Event) (StateM σ) β) :
    runTraced (x >>= f) log s = runTraced (f a) log' s' := by
  change runTraced (f (runTraced x log s).1.1) (runTraced x log s).1.2 (runTraced x log s).2 = _
  rw [h]

/-- A noted call answers as it does otherwise. -/
theorem runTraced_noted {call : StateM σ α} {s s' : σ} {answer : α}
    (h : call.run s = (answer, s')) (event : α → Event) (log : List Event) :
    runTraced (noted call event) log s = ((answer, log ++ [event answer]), s') := by
  change (fun p : α × σ => ((p.1, log ++ [event p.1]), p.2)) (call.run s) = _
  rw [h]

end

/-! ## one request -/

section

variable {σ : Type} {o : SynthesisOptions} {bridge : Bridge (StateM σ)} {sink : Sink (StateM σ)}

/-- How a request runs from a state: what it does, what it answers, and the state
that it leaves. -/
inductive Steps (o : SynthesisOptions) (bridge : Bridge (StateM σ)) (sink : Sink (StateM σ))
    (r : Request) (s : σ) : List Event → Except RequestError Outcome → σ → Prop where
  | blank (h : Text.isBlank r.library = true) : Steps o bridge sink r s [] (.error .blankLibrary) s
  | notExtracted (h : Text.isBlank r.library = false) {e : BridgeError} {s₁ : σ}
    (hextract : (bridge.extract r.library r.includeOnly).run s = (.error e, s₁)) :
    Steps o bridge sink r s [.extract r.library r.includeOnly (.error e)]
      (.error (.extraction e)) s₁
  | refused (h : Text.isBlank r.library = false) {d : MetadataDocument} {s₁ : σ}
    (hextract : (bridge.extract r.library r.includeOnly).run s = (.ok d, s₁))
    {e : DocumentError} (hd : Library.ofDocument d = .error e) :
    Steps o bridge sink r s [.extract r.library r.includeOnly (.ok d)] (.error (.document e)) s₁
  | notKept (h : Text.isBlank r.library = false) {d : MetadataDocument} {s₁ : σ}
    (hextract : (bridge.extract r.library r.includeOnly).run s = (.ok d, s₁))
    {l : Library} (hd : Library.ofDocument d = .ok l) {e : SinkError} {s₂ : σ}
    (hpersist : (sink.persist r
      (Synthesis.synthesize o (l.retainAllowed r.includeOnly))).run s₁ = (.error e, s₂)) :
    Steps o bridge sink r s
      [.extract r.library r.includeOnly (.ok d),
        .persist r (Synthesis.synthesize o (l.retainAllowed r.includeOnly)) (.error e)]
      (.error (.persist e)) s₂
  | kept (h : Text.isBlank r.library = false) {d : MetadataDocument} {s₁ : σ}
    (hextract : (bridge.extract r.library r.includeOnly).run s = (.ok d, s₁))
    {l : Library} (hd : Library.ofDocument d = .ok l) {files : List Path} {s₂ : σ}
    (hpersist : (sink.persist r
      (Synthesis.synthesize o (l.retainAllowed r.includeOnly))).run s₁ = (.ok files, s₂)) :
    Steps o bridge sink r s
      [.extract r.library r.includeOnly (.ok d),
        .persist r (Synthesis.synthesize o (l.retainAllowed r.includeOnly)) (.ok files)]
      (.ok (.ofPlan (Synthesis.synthesize o (l.retainAllowed r.includeOnly)) files)) s₂

/-- The steps of a request are those of one round, whichever of them fails. -/
theorem Steps.round {r : Request} {s s' : σ} {events : List Event}
    {answer : Except RequestError Outcome} (h : Steps o bridge sink r s events answer s') :
    Round o r events (outcomeOf r answer) := by
  cases h with
  | blank hblank => exact .blank hblank
  | notExtracted hblank => exact .notExtracted hblank _
  | refused hblank _ hd => exact .refused hblank _ _ hd
  | notKept hblank _ hd => exact .notKept hblank _ _ hd _
  | kept hblank _ hd => exact .kept hblank _ _ hd _

/-- **A request runs in steps**: traced or not it has the same answer and leaves
the same state, and the trace adds what it does. -/
theorem steps_runRequest (r : Request) (log : List Event) (s : σ) :
    ∃ events answer s',
      (runRequest o bridge sink r).run s = (answer, s') ∧
        runTraced (runRequest o bridge.traced sink.traced r) log s = ((answer, log ++ events), s') ∧
        Steps o bridge sink r s events answer s' := by
  cases hblank : Text.isBlank r.library with
  | true =>
      refine ⟨[], .error .blankLibrary, s, ?_, ?_, .blank hblank⟩
      · rw [runRequest, if_pos hblank]
        rfl
      · rw [runRequest, if_pos hblank, List.append_nil]
        rfl
  | false =>
      have hnot : ¬Text.isBlank r.library = true := by simp [hblank]
      rw [runRequest, runRequest, if_neg hnot, if_neg hnot]
      obtain ⟨extracted, s₁, hextract⟩ : ∃ extracted s₁,
          (bridge.extract r.library r.includeOnly).run s = (extracted, s₁) := ⟨_, _, rfl⟩
      have htraced := runTraced_noted hextract (.extract r.library r.includeOnly) log
      rw [run_bind_eq hextract, Bridge.traced, runTraced_bind_eq htraced]
      cases extracted with
      | error e => exact ⟨_, .error (.extraction e), s₁, rfl, rfl, .notExtracted hblank hextract⟩
      | ok d =>
          cases hd : Library.ofDocument d with
          | error e =>
              simp only [planOf_eq_error hd]
              exact ⟨_, .error (.document e), s₁, rfl, rfl, .refused hblank hextract hd⟩
          | ok l =>
              simp only [planOf_eq_ok hd]
              obtain ⟨persisted, s₂, hpersist⟩ : ∃ persisted s₂, (sink.persist r
                  (Synthesis.synthesize o (l.retainAllowed r.includeOnly))).run s₁ =
                    (persisted, s₂) := ⟨_, _, rfl⟩
              have htraced := runTraced_noted hpersist (Event.persist r
                (Synthesis.synthesize o (l.retainAllowed r.includeOnly)))
                (log ++ [.extract r.library r.includeOnly (.ok d)])
              rw [run_bind_eq hpersist, Sink.traced, runTraced_bind_eq htraced, List.append_assoc]
              cases persisted with
              | error e =>
                  exact ⟨_, .error (.persist e), s₂, rfl, rfl,
                    .notKept hblank hextract hd hpersist⟩
              | ok files =>
                  exact ⟨_, .ok (.ofPlan _ files), s₂, rfl, rfl,
                    .kept hblank hextract hd hpersist⟩

/-! ## all requests -/

/-- How requests run from a state, one after the other. -/
inductive Chain (o : SynthesisOptions) (bridge : Bridge (StateM σ)) (sink : Sink (StateM σ)) :
    List Request → σ → List (List Event × Outcome) → σ → Prop where
  | nil (s : σ) : Chain o bridge sink [] s [] s
  | cons {r : Request} {more : List Request} {s s₁ s₂ : σ} {events : List Event}
    {answer : Except RequestError Outcome} {rounds : List (List Event × Outcome)}
    (hsteps : Steps o bridge sink r s events answer s₁)
    (hmore : Chain o bridge sink more s₁ rounds s₂) :
    Chain o bridge sink (r :: more) s ((events, outcomeOf r answer) :: rounds) s₂

/-- Request by request, a chain consists of the rounds of its requests. -/
theorem Chain.rounds {requests : List Request} {s s' : σ} {rounds : List (List Event × Outcome)}
    (h : Chain o bridge sink requests s rounds s') :
    List.Forall₂ (fun r round => Round o r round.1 round.2) requests rounds := by
  induction h with
  | nil _ => exact .nil
  | cons hsteps _ ih => exact .cons hsteps.round ih

/-- **Requests run in a chain**, each from the state that the one before leaves. -/
theorem chain_runRequests (requests : List Request) (log : List Event) (s : σ) :
    ∃ (rounds : List (List Event × Outcome)) (s' : σ),
      (runRequests o bridge sink requests).run s = (rounds.map Prod.snd, s') ∧
        runTraced (runRequests o bridge.traced sink.traced requests) log s =
          ((rounds.map Prod.snd, log ++ rounds.flatMap Prod.fst), s') ∧
        Chain o bridge sink requests s rounds s' := by
  induction requests generalizing log s with
  | nil => exact ⟨[], s, rfl, by rw [List.flatMap_nil, List.append_nil]; rfl, .nil s⟩
  | cons r more ih =>
      obtain ⟨events, answer, s₁, hrun, htraced, hsteps⟩ := steps_runRequest r log s
      obtain ⟨rounds, s₂, hruns, htraceds, hchain⟩ := ih (log ++ events) s₁
      refine ⟨(events, outcomeOf r answer) :: rounds, s₂, ?_, ?_, .cons hsteps hchain⟩
      · rw [runRequests, run_bind_eq hrun, run_bind_eq hruns]
        rfl
      · rw [runRequests, runTraced_bind_eq htraced, runTraced_bind_eq htraceds, List.append_assoc]
        rfl

/-- **Requests run one round each**, one after the other. -/
theorem run_runRequests (requests : List Request) (log : List Event) (s : σ) :
    ∃ (rounds : List (List Event × Outcome)) (s' : σ),
      (runRequests o bridge sink requests).run s = (rounds.map Prod.snd, s') ∧
        runTraced (runRequests o bridge.traced sink.traced requests) log s =
          ((rounds.map Prod.snd, log ++ rounds.flatMap Prod.fst), s') ∧
        List.Forall₂ (fun r round => Round o r round.1 round.2) requests rounds := by
  obtain ⟨rounds, s', hrun, htraced, hchain⟩ := chain_runRequests requests log s
  exact ⟨rounds, s', hrun, htraced, hchain.rounds⟩

/-- **A batch runs its requests in a chain**, and then releases the bridge. -/
theorem chain_generate (o : SynthesisOptions) (bridge : Bridge (StateM σ)) (sink : Sink (StateM σ))
    (requests : List Request) (s : σ) :
    ∃ (rounds : List (List Event × Outcome)) (s₁ : σ) (released : Except BridgeError Unit) (s' : σ),
      (runRequests o bridge sink requests).run s = (rounds.map Prod.snd, s₁) ∧
      Chain o bridge sink requests s rounds s₁ ∧ bridge.release.run s₁ = (released, s') ∧
      (generate o bridge sink requests).run s =
        (conclude ⟨rounds.map Prod.snd⟩ released, s') ∧
      runTraced (generate o bridge.traced sink.traced requests) [] s =
        ((conclude ⟨rounds.map Prod.snd⟩ released,
          rounds.flatMap Prod.fst ++ [.release released]), s') := by
  obtain ⟨rounds, s₁, hruns, htraced, hchain⟩ := chain_runRequests requests [] s
  obtain ⟨released, s', hrelease⟩ : ∃ released s', bridge.release.run s₁ = (released, s') :=
    ⟨_, _, rfl⟩
  refine ⟨rounds, s₁, released, s', hruns, hchain, hrelease, ?_, ?_⟩
  · rw [generate, run_bind_eq hruns, run_bind_eq hrelease]
    rfl
  · have hreleased := runTraced_noted hrelease .release ([] ++ rounds.flatMap Prod.fst)
    rw [generate, runTraced_bind_eq htraced, Bridge.traced, runTraced_bind_eq hreleased,
      List.nil_append]
    rfl

/-! ## the protocol -/

/-- The calls of the bridge in rounds are those for the requests. -/
theorem bridgeCalls_rounds {requests : List Request} {rounds : List (List Event × Outcome)}
    (h : List.Forall₂ (fun r round => Round o r round.1 round.2) requests rounds) :
    (rounds.flatMap Prod.fst).filterMap Event.bridgeCall? = requests.flatMap extractCalls := by
  induction h with
  | nil => rfl
  | cons hround _ ih =>
      rw [List.flatMap_cons, List.filterMap_append, hround.bridgeCalls, ih, List.flatMap_cons]

/-- Over all the requests, the bridge is asked about those with a name that is not blank. -/
theorem flatMap_extractCalls (requests : List Request) :
    requests.flatMap extractCalls =
      (requests.filter fun r => !Text.isBlank r.library).map fun r =>
        .extract r.library r.includeOnly := by
  induction requests with
  | nil => rfl
  | cons r more ih =>
      rw [List.flatMap_cons, ih, extractCalls, List.filter_cons]
      cases Text.isBlank r.library <;> rfl

/-- The batch succeeds when every round does. -/
theorem isSuccess_rounds (rounds : List (List Event × Outcome)) :
    Report.isSuccess ⟨rounds.map Prod.snd⟩ = true ↔
      ∀ round ∈ rounds, round.2.succeeded = true := by
  simp [Report.isSuccess]

/-- What a batch owes for its requests: its trace is made of `rounds` and a
release with the answer `released`, and its result is decided by these. -/
structure Protocol (o : SynthesisOptions) (requests : List Request) (trace : List Event)
    (rounds : List (List Event × Outcome)) (released : Except BridgeError Unit)
    (result : Except BatchError Report) : Prop where
  /-- One round for each request, in order, then the release and nothing else. -/
  trace_eq : trace = rounds.flatMap Prod.fst ++ [.release released]
  rounds_follow : List.Forall₂ (fun r round => Round o r round.1 round.2) requests rounds
  /-- The bridge is asked once for each request that is not blank, and released
  once. -/
  bridge_calls : trace.filterMap Event.bridgeCall? =
    (requests.filter fun r => !Text.isBlank r.library).map
      (fun r => .extract r.library r.includeOnly) ++ [.release]
  /-- The sink is asked once, in its round, for each request that has a plan. -/
  sink_calls : List.Forall₂
    (fun r round => round.1.filterMap Event.persisted? = persistCalls o r round.1) requests rounds
  /-- A request succeeded exactly if it went through. -/
  outcomes_tell : List.Forall₂
    (fun r round => round.2.succeeded = true ↔ WentThrough o r round.1) requests rounds
  ok_iff : result = .ok ⟨rounds.map Prod.snd⟩ ↔
    (∀ round ∈ rounds, round.2.succeeded = true) ∧ released = .ok ()
  failed_iff : result = .error (.failed ⟨rounds.map Prod.snd⟩) ↔
    ∃ round ∈ rounds, round.2.succeeded = false
  release_iff : ∀ e, result = .error (.release e) ↔
    (∀ round ∈ rounds, round.2.succeeded = true) ∧ released = .error e

section

variable {report : Report} {released : Except BridgeError Unit}

/-- The report is the result when nothing failed, the release included. -/
theorem conclude_eq_ok_iff :
    conclude report released = .ok report ↔ report.isSuccess = true ∧ released = .ok () := by
  unfold conclude
  by_cases h : report.isSuccess = true
  · rw [if_pos h]
    cases released with
    | error e => simp
    | ok _ => simp [h]
  · rw [if_neg h]
    simp [h]

/-- A failed request is reported whatever the release answers. -/
theorem conclude_eq_failed_iff :
    conclude report released = .error (.failed report) ↔ ¬report.isSuccess = true := by
  unfold conclude
  by_cases h : report.isSuccess = true
  · rw [if_pos h]
    cases released <;> simp [h]
  · rw [if_neg h]
    simp [h]

/-- The error of the release is seen only behind requests that all succeeded. -/
theorem conclude_eq_release_iff {e : BridgeError} :
    conclude report released = .error (.release e) ↔
      report.isSuccess = true ∧ released = .error e := by
  unfold conclude
  by_cases h : report.isSuccess = true
  · rw [if_pos h]
    cases released with
    | error e' => simp [h]
    | ok _ => simp
  · rw [if_neg h]
    simp [h]

end

/-- Rounds and a release follow the protocol if they conclude in its result. -/
theorem protocol_of_rounds {requests : List Request} {rounds : List (List Event × Outcome)}
    (h : List.Forall₂ (fun r round => Round o r round.1 round.2) requests rounds)
    (released : Except BridgeError Unit) :
    Protocol o requests (rounds.flatMap Prod.fst ++ [.release released]) rounds released
      (conclude ⟨rounds.map Prod.snd⟩ released) where
  trace_eq := rfl
  rounds_follow := h
  bridge_calls := by
    rw [List.filterMap_append, bridgeCalls_rounds h, flatMap_extractCalls]
    rfl
  sink_calls := h.imp fun _ _ hround => hround.persistCalls_eq
  outcomes_tell := h.imp fun _ _ hround => hround.succeeded_iff
  ok_iff := by rw [conclude_eq_ok_iff, isSuccess_rounds]
  failed_iff := by
    rw [conclude_eq_failed_iff, isSuccess_rounds]
    simp only [not_forall, Bool.not_eq_true, exists_prop]
  release_iff e := by rw [conclude_eq_release_iff, isSuccess_rounds]

/-- **The protocol of a batch**: whatever the bridge and the sink answer, a batch
follows the protocol, and its trace is that of the run itself. -/
theorem follows_generate (o : SynthesisOptions) (bridge : Bridge (StateM σ))
    (sink : Sink (StateM σ)) (requests : List Request) (s : σ) :
    ∃ result trace rounds released s',
      (generate o bridge sink requests).run s = (result, s') ∧
        runTraced (generate o bridge.traced sink.traced requests) [] s = ((result, trace), s') ∧
        Protocol o requests trace rounds released result := by
  obtain ⟨rounds, s₁, hrun, htraced, hrounds⟩ := run_runRequests requests [] s
  obtain ⟨released, s₂, hrelease⟩ : ∃ released s₂, bridge.release.run s₁ = (released, s₂) :=
    ⟨_, _, rfl⟩
  refine ⟨conclude ⟨rounds.map Prod.snd⟩ released, rounds.flatMap Prod.fst ++ [.release released],
    rounds, released, s₂, ?_, ?_, protocol_of_rounds hrounds released⟩
  · rw [generate, run_bind_eq hrun, run_bind_eq hrelease]
    rfl
  · have hreleased := runTraced_noted hrelease .release ([] ++ rounds.flatMap Prod.fst)
    rw [generate, runTraced_bind_eq htraced, Bridge.traced, runTraced_bind_eq hreleased,
      List.nil_append]
    rfl

end

end Batch

end BindingSynthesis
