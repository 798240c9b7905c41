import BindingSynthesis.Proofs.Wrappers
import Mathlib.Data.List.Basic
import Mathlib.Data.List.Intervals

/-!
# BindingSynthesis.Proofs.Overloads

Which overloads a wrapper has, as a function of what it wraps.

A callable with a host name asks for overloads:

1. in the wrapper of a library, for `0, 1, …, n` arguments if it has `n`
   parameters;
2. in the wrapper of a class, with `t` parameters behind the receiver and `k`
   optional ones, for `t - k, …, t` arguments, and if `0 < k` for `t - k`
   arguments with a map of keywords behind them, under a name of its own.

The candidates of a wrapper are those of its callables, one callable after the
other.  `bindings_eq_firstOccurrences` says that the wrapper has exactly the
candidates that come first with their signature, and that the log of the plan
holds the others, and the callables that asked for nothing, in order.
-/

namespace BindingSynthesis.Synthesis

variable {o : SynthesisOptions} {l : Library} {library owner : String} {kind : WrapperKind}

/-! ## candidates -/

/-- An overload that a callable asks for. -/
structure Candidate where
  signature : Signature
  callable : Callable

/-- What a free function asks for. -/
def functionCandidates (f : Callable) : List Candidate :=
  match HostName.forBinding? f.name with
  | none => []
  | some host => (List.Ico 0 (f.params.length + 1)).map fun n => ⟨⟨host, n, false⟩, f⟩

/-- What a method asks for. -/
def methodCandidates (o : SynthesisOptions) (m : Callable) : List Candidate :=
  if m.name = "__init__" then [] else
  match HostName.forBinding? m.name with
  | none => []
  | some host =>
    let total := m.params.length - 1
    let optional := min m.optionalCount m.params.length
    let required := total - optional
    (List.Ico required (total + 1)).map (fun n => ⟨⟨host, n, false⟩, m⟩) ++
      if 0 < optional then [⟨⟨host ++ o.kwargsSuffix, required, true⟩, m⟩] else []

/-- What callables ask for in a wrapper of a level, in order. -/
def candidates (o : SynthesisOptions) (kind : WrapperKind) (callables : List Callable) :
    List Candidate :=
  callables.flatMap fun c => match kind with
    | .libraryLevel => functionCandidates c
    | .classLevel => methodCandidates o c

/-- The candidates of a function are its own, and it has them only under a usable name. -/
theorem callable_of_mem_functionCandidates {f : Callable} {c : Candidate}
    (h : c ∈ functionCandidates f) :
    c.callable = f ∧ (HostName.forBinding? f.name).isSome := by
  rw [functionCandidates] at h
  cases hhost : HostName.forBinding? f.name with
  | none => simp [hhost] at h
  | some host =>
      rw [hhost] at h
      obtain ⟨n, _, rfl⟩ := List.mem_map.mp h
      exact ⟨rfl, rfl⟩

/-- The same for the candidates of a method. -/
theorem callable_of_mem_methodCandidates {m : Callable} {c : Candidate}
    (h : c ∈ methodCandidates o m) :
    c.callable = m ∧ (HostName.forBinding? m.name).isSome := by
  rw [methodCandidates] at h
  split at h
  · cases h
  · cases hhost : HostName.forBinding? m.name with
    | none => simp [hhost] at h
    | some host =>
        rw [hhost] at h
        cases List.mem_append.mp h with
        | inl hplain =>
            obtain ⟨n, _, rfl⟩ := List.mem_map.mp hplain
            exact ⟨rfl, rfl⟩
        | inr htail =>
            split at htail
            · rw [List.mem_singleton.mp htail]
              exact ⟨rfl, rfl⟩
            · cases htail

/-- What a callable asks for is a candidate of that callable, which has a host
name. -/
theorem callable_of_mem_candidates {callables : List Callable} {c : Candidate}
    (h : c ∈ candidates o kind callables) :
    c.callable ∈ callables ∧ (HostName.forBinding? c.callable.name).isSome := by
  obtain ⟨f, hf, hc⟩ := List.mem_flatMap.mp h
  have hcallable : c.callable = f ∧ (HostName.forBinding? f.name).isSome := by
    cases kind with
    | libraryLevel => exact callable_of_mem_functionCandidates hc
    | classLevel => exact callable_of_mem_methodCandidates hc
  rw [hcallable.1]
  exact ⟨hf, hcallable.2⟩

/-- Why a callable asks for nothing in a wrapper of a level, if it does not. -/
def refusalReason? (kind : WrapperKind) (c : Callable) : Option SkipReason :=
  if kind = .classLevel ∧ c.name = "__init__" then some .constructor
  else if HostName.forBinding? c.name = none then some .invalidName
  else none

/-- Where a callable of a wrapper of a level is called. -/
def targetIn (library : String) (kind : WrapperKind) (c : Callable) : Target :=
  match kind with
  | .libraryLevel => functionTarget library c
  | .classLevel => .receiver c.name

namespace Candidate

/-- The binding that a candidate becomes if it is admitted: its target and its
doc are those of its callable. -/
def binding (o : SynthesisOptions) (library : String) (kind : WrapperKind) (owner : String)
    (c : Candidate) : Binding where
  ownerKind := kind
  ownerName := owner
  name := c.signature.name
  arity := c.signature.arity
  keywordTail := c.signature.keywordTail
  target := targetIn library kind c.callable
  requiresAlias := (targetIn library kind c.callable).aliasName?.isSome
  doc := CommentText.ofDoc o.docMaxChars c.callable.doc

/-- The record of a candidate that is not admitted. -/
def skip (owner : String) (c : Candidate) : Skip :=
  ⟨owner, c.callable.name, .duplicateSignature c.signature.arity c.signature.keywordTail⟩

/-- The candidate as `settle` sees it. -/
def offered (o : SynthesisOptions) (library : String) (kind : WrapperKind) (owner : String)
    (c : Candidate) : String × Binding :=
  (c.callable.name, c.binding o library kind owner)

/-- The key that overloads are compared by is the signature of the candidate. -/
theorem overloadKey_comp_offered :
    overloadKey ∘ offered o library kind owner = Candidate.signature := rfl

end Candidate

/-! ## signatures of candidates -/

/-- The fewest arguments that a callable is called with in a wrapper of a level. -/
def requiredArguments : WrapperKind → Callable → Nat
  | .libraryLevel, _ => 0
  | .classLevel, m => m.params.length - 1 - min m.optionalCount m.params.length

/-- A callable that asks for each number of arguments from `r` to `t`. -/
theorem plain_mem_positional {c : Callable} {name host : String} {r t n : Nat} :
    ⟨host, n, false⟩ ∈ ((List.Ico r (t + 1)).map fun k =>
        (⟨⟨name, k, false⟩, c⟩ : Candidate)).map Candidate.signature ↔
      name = host ∧ r ≤ n ∧ n ≤ t := by
  rw [List.map_map, List.mem_map]
  constructor
  · rintro ⟨k, hk, he⟩
    cases he
    obtain ⟨hr, ht⟩ := List.Ico.mem.mp hk
    exact ⟨rfl, hr, Nat.lt_succ_iff.mp ht⟩
  · rintro ⟨rfl, hr, ht⟩
    exact ⟨n, List.Ico.mem.mpr ⟨hr, Nat.lt_succ_iff.mpr ht⟩, rfl⟩

/-- A function is offered at every number of arguments up to the number of its parameters. -/
theorem plain_mem_functionCandidates {f : Callable} {host : String} {n : Nat} :
    ⟨host, n, false⟩ ∈ (functionCandidates f).map Candidate.signature ↔
      HostName.forBinding? f.name = some host ∧ n ≤ f.params.length := by
  rw [functionCandidates]
  cases HostName.forBinding? f.name with
  | none => simp
  | some name => simp only [plain_mem_positional, Nat.zero_le, true_and, Option.some.injEq]

/-- A method is offered between its required and its total arguments, the receiver not
counted. -/
theorem plain_mem_methodCandidates {m : Callable} {host : String} {n : Nat} :
    ⟨host, n, false⟩ ∈ (methodCandidates o m).map Candidate.signature ↔
      m.name ≠ "__init__" ∧ HostName.forBinding? m.name = some host ∧
        requiredArguments .classLevel m ≤ n ∧ n ≤ m.params.length - 1 := by
  rw [methodCandidates, requiredArguments]
  by_cases hname : m.name = "__init__"
  · simp [hname]
  · rw [if_neg hname]
    cases HostName.forBinding? m.name with
    | none => simp
    | some name =>
        -- The candidate with a map of keywords has a signature of the other kind.
        simp only [List.map_append, List.mem_append, plain_mem_positional]
        split <;> simp [hname]

/-- **Calls without arguments**: a callable asks for an overload without
parameters under a name exactly if that is its host name and it requires no
arguments. -/
theorem nullary_mem_candidates {callables : List Callable} {host : String}
    (hhost : host ≠ "__init__") :
    ⟨host, 0, false⟩ ∈ (candidates o kind callables).map Candidate.signature ↔
      ∃ c ∈ callables, HostName.forBinding? c.name = some host ∧ requiredArguments kind c = 0 := by
  rw [candidates, List.map_flatMap, List.mem_flatMap]
  refine exists_congr fun c => and_congr_right fun _ => ?_
  cases kind with
  | libraryLevel => simp [plain_mem_functionCandidates, requiredArguments]
  | classLevel =>
      have hinit : HostName.forBinding? c.name = some host → c.name ≠ "__init__" := by
        intro h e
        rw [e] at h
        exact hhost (Option.some.inj (h.symm.trans (by decide)))
      rw [plain_mem_methodCandidates]
      constructor
      · rintro ⟨_, h, hr, _⟩
        exact ⟨h, Nat.le_zero.mp hr⟩
      · rintro ⟨h, hr⟩
        exact ⟨hinit h, h, hr.le, Nat.zero_le _⟩

/-! ## offers are candidates -/

/-- The overloads in the offers of a list are collected element by element. -/
theorem overloads_flatMap {α : Type} (f : α → List Offer) (xs : List α) :
    overloads (xs.flatMap f) = xs.flatMap fun x => overloads (f x) :=
  List.filterMap_flatMap

/-- So are the refusals. -/
theorem refusals_flatMap {α : Type} (f : α → List Offer) (xs : List α) :
    refusals (xs.flatMap f) = xs.flatMap fun x => refusals (f x) :=
  List.filterMap_flatMap

/-- The overloads among offers that are all overloads of one symbol. -/
theorem overloads_map_overload {α : Type} (symbol : String) (b : α → Binding) (xs : List α) :
    overloads (xs.map fun x => .overload symbol (b x)) = xs.map fun x => (symbol, b x) := by
  simp [overloads, List.filterMap_map, Function.comp_def, Offer.overload?]

/-- Overloads refuse nothing. -/
theorem refusals_map_overload {α : Type} (symbol : String) (b : α → Binding) (xs : List α) :
    refusals (xs.map fun x => .overload symbol (b x)) = [] := by
  simp [refusals, List.filterMap_map, Function.comp_def, Offer.refusal?]

/-- A free function offers the overloads that it asks for. -/
theorem overloads_functionOffers (o : SynthesisOptions) (library owner : String) (f : Callable) :
    overloads (functionOffers o library owner f) =
      (functionCandidates f).map (Candidate.offered o library .libraryLevel owner) := by
  rw [functionOffers, functionCandidates]
  cases HostName.forBinding? f.name with
  | none => rfl
  | some host =>
      simp only
      rw [overloads_map_overload, Shape.ofFunction, Shape.positional, List.map_map, List.map_map]
      rfl

/-- A method offers the overloads that it asks for. -/
theorem overloads_methodOffers (o : SynthesisOptions) (library owner : String) (m : Callable) :
    overloads (methodOffers o owner m) =
      (methodCandidates o m).map (Candidate.offered o library .classLevel owner) := by
  rw [methodOffers, methodCandidates, constructorSymbol]
  by_cases hname : m.name = "__init__"
  · rw [if_pos hname, if_pos hname]
    rfl
  · rw [if_neg hname, if_neg hname]
    cases HostName.forBinding? m.name with
    | none => rfl
    | some host =>
        simp only
        rw [overloads_map_overload, Shape.ofMethod, Shape.positional, List.map_append, List.map_map,
          List.map_append, List.map_map, Callable.optionalParams, Callable.totalParams]
        congr 1
        split <;> rfl

/-- A function is refused at most once, for the first reason there is. -/
theorem refusals_functionOffers (o : SynthesisOptions) (library owner : String) (f : Callable) :
    refusals (functionOffers o library owner f) =
      ((refusalReason? .libraryLevel f).map fun reason => (f.name, reason)).toList := by
  rw [functionOffers, refusalReason?]
  cases HostName.forBinding? f.name with
  | none => simp [refusals, Offer.refusal?]
  | some host => simp [refusals_map_overload]

/-- So is a method, with the constructor among the reasons. -/
theorem refusals_methodOffers (o : SynthesisOptions) (owner : String) (m : Callable) :
    refusals (methodOffers o owner m) =
      ((refusalReason? .classLevel m).map fun reason => (m.name, reason)).toList := by
  rw [methodOffers, refusalReason?, constructorSymbol]
  by_cases hname : m.name = "__init__"
  · simp [hname, refusals, Offer.refusal?]
  · cases HostName.forBinding? m.name with
    | none => simp [hname, refusals, Offer.refusal?]
    | some host => simp [hname, refusals_map_overload]

/-- The callables that ask for nothing, with the reasons. -/
def refused (kind : WrapperKind) (callables : List Callable) : List (String × SkipReason) :=
  callables.filterMap fun c => (refusalReason? kind c).map fun reason => (c.name, reason)

/-- The library wrapper is offered the candidates of the functions, in order. -/
theorem overloads_libraryOffers (o : SynthesisOptions) (l : Library) :
    overloads (libraryOffers o l) = (candidates o .libraryLevel l.functions).map
      (Candidate.offered o l.name .libraryLevel (libraryWrapperName o l)) := by
  rw [libraryOffers, overloads_flatMap, candidates, List.map_flatMap]
  simp only [overloads_functionOffers]

/-- A class wrapper is offered the candidates of its methods, in order. -/
theorem overloads_classOffers (o : SynthesisOptions) (library : String) (c : ForeignClass) :
    overloads (classOffers o c) = (candidates o .classLevel c.methods).map
      (Candidate.offered o library .classLevel (classWrapperName o c)) := by
  rw [classOffers, overloads_flatMap, candidates, List.map_flatMap]
  simp only [overloads_methodOffers o library]

/-- The refusals of the library wrapper are those of its functions. -/
theorem refusals_libraryOffers (o : SynthesisOptions) (l : Library) :
    refusals (libraryOffers o l) = refused .libraryLevel l.functions := by
  rw [libraryOffers, refusals_flatMap]
  simp only [refusals_functionOffers]
  exact (List.filterMap_eq_flatMap_toList _ _).symm

/-- The refusals of a class wrapper are those of its methods. -/
theorem refusals_classOffers (o : SynthesisOptions) (c : ForeignClass) :
    refusals (classOffers o c) = refused .classLevel c.methods := by
  rw [classOffers, refusals_flatMap]
  simp only [refusals_methodOffers]
  exact (List.filterMap_eq_flatMap_toList _ _).symm

/-- Callables are refused for reasons of their own. -/
theorem isRefusal_of_mem_refused {callables : List Callable} {x : String × SkipReason}
    (h : x ∈ refused kind callables) : x.2.isRefusal = true := by
  obtain ⟨c, _, hx⟩ := List.mem_filterMap.mp h
  obtain ⟨reason, hr, rfl⟩ := Option.map_eq_some_iff.mp hx
  rw [refusalReason?] at hr
  split at hr
  · cases hr; rfl
  · split at hr
    · cases hr; rfl
    · cases hr

/-- The refusals of callables have their own reasons: none of them is that of a repeated
overload. -/
theorem refusesOnly_of_refusals {offers : List Offer} {callables : List Callable}
    (h : refusals offers = refused kind callables) : RefusesOnly offers := by
  intro symbol reason hm
  have hr : (symbol, reason) ∈ refusals offers :=
    List.mem_filterMap.mpr ⟨Offer.refused symbol reason, hm, rfl⟩
  rw [h] at hr
  exact isRefusal_of_mem_refused hr

/-! ## candidates are settled -/

section

variable {offers : List Offer} {cs : List Candidate}

/-- Offers of candidates admit the candidates that come first with their
signature. -/
theorem bindings_settle_candidates
    (h : overloads offers = cs.map (Candidate.offered o library kind owner)) :
    (settle owner [] offers).bindings =
      (firstOccurrences Candidate.signature cs).map (Candidate.binding o library kind owner) := by
  rw [bindings_settle, h, firstsAfter_map, Candidate.overloadKey_comp_offered,
    firstsAfter_eq_firstOccurrences, List.map_map]
  rfl

/-- Offers of candidates record the candidates that repeat a signature. -/
theorem duplicates_settle_candidates (hrefuse : RefusesOnly offers)
    (h : overloads offers = cs.map (Candidate.offered o library kind owner)) :
    ((settle owner [] offers).skipped.filter fun s => s.reason.isDuplicate) =
      (repetitions Candidate.signature cs).map (Candidate.skip owner) := by
  rw [duplicates_settle owner [] hrefuse, h, repeatsAfter_map, Candidate.overloadKey_comp_offered,
    repeatsAfter_eq_repetitions, List.map_map]
  rfl

end

/-- Every wrapper of a plan is made by settling offers: those of its callables,
whose overloads are the candidates. -/
theorem settled_of_mem_wrappers {w : Wrapper} (hw : w ∈ (synthesize o l).wrappers) :
    ∃ offers : List Offer,
      overloads offers = (candidates o w.kind (wrappedCallables o l w)).map
        (Candidate.offered o l.name w.kind w.name) ∧
      refusals offers = refused w.kind (wrappedCallables o l w) ∧
      w.bindings = (settle w.name [] offers).bindings ∧
      ∀ ofKind : SkipReason → Bool, ofKind .ownerCollision = false →
        skipsUnder (synthesize o l).skipped w.name ofKind =
          (settle w.name [] offers).skipped.filter fun s => ofKind s.reason := by
  cases mem_wrappers_synthesize.mp hw with
  | inl hlib =>
      subst hlib
      exact ⟨libraryOffers o l, overloads_libraryOffers o l, refusals_libraryOffers o l, rfl,
        fun _ hkind => skipsUnder_libraryWrapper hkind⟩
  | inr hclass =>
      obtain ⟨c, hc, rfl⟩ := hclass
      rw [wrappedCallables_classWrapper (mem_of_mem_wrappedClasses hc)]
      exact ⟨classOffers o c, overloads_classOffers o l.name c, refusals_classOffers o c, rfl,
        fun _ hkind => skipsUnder_classWrapper hkind hc⟩

/-- A wrapper has the candidates that come first with their signature. -/
theorem bindings_of_mem_wrappers {w : Wrapper} (hw : w ∈ (synthesize o l).wrappers) :
    w.bindings =
      (firstOccurrences Candidate.signature (candidates o w.kind (wrappedCallables o l w))).map
        (Candidate.binding o l.name w.kind w.name) := by
  obtain ⟨offers, hover, _, hbindings, _⟩ := settled_of_mem_wrappers hw
  rw [hbindings, bindings_settle_candidates hover]

/-- The bindings of a wrapper have different signatures. -/
theorem nodup_signatures_bindings {w : Wrapper} (hw : w ∈ (synthesize o l).wrappers) :
    (w.bindings.map Binding.signature).Nodup := by
  rw [bindings_of_mem_wrappers hw, List.map_map, ← firstsAfter_eq_firstOccurrences]
  exact nodup_map_firstsAfter [] _

/-- The bindings of a wrapper have the signatures of its candidates. -/
theorem mem_signatures_bindings {w : Wrapper} (hw : w ∈ (synthesize o l).wrappers) {s : Signature} :
    s ∈ w.bindings.map Binding.signature ↔
      s ∈ (candidates o w.kind (wrappedCallables o l w)).map Candidate.signature := by
  rw [bindings_of_mem_wrappers hw, List.map_map, ← firstsAfter_eq_firstOccurrences]
  exact mem_map_firstsAfter.trans (and_iff_left List.not_mem_nil)

/-- **Overload sets are exact**: a wrapper has the candidates of its callables
that come first with their signature, in order, each with the target and the doc
of the callable that it is a candidate of; under the name of the wrapper the log
holds the other candidates, in order, and the callables that have none. -/
theorem bindings_eq_firstOccurrences (o : SynthesisOptions) (l : Library) {w : Wrapper}
    (hw : w ∈ (synthesize o l).wrappers) :
    w.bindings =
        (firstOccurrences Candidate.signature (candidates o w.kind (wrappedCallables o l w))).map
          (Candidate.binding o l.name w.kind w.name) ∧
      skipsUnder (synthesize o l).skipped w.name SkipReason.isDuplicate =
        (repetitions Candidate.signature (candidates o w.kind (wrappedCallables o l w))).map
          (Candidate.skip w.name) ∧
      skipsUnder (synthesize o l).skipped w.name SkipReason.isRefusal =
        (refused w.kind (wrappedCallables o l w)).map fun x => ⟨w.name, x.1, x.2⟩ := by
  obtain ⟨offers, hover, hrefused, _, hskips⟩ := settled_of_mem_wrappers hw
  have honly := refusesOnly_of_refusals hrefused
  refine ⟨bindings_of_mem_wrappers hw, ?_, ?_⟩
  · rw [hskips _ rfl, duplicates_settle_candidates honly hover]
  · rw [hskips _ rfl, refusals_settle w.name [] honly, hrefused]

/-- Two functions that become one host name. -/
def collidingFunctions : Library :=
  ⟨"lib", [⟨"f$", ["a"], 0, none, ""⟩, ⟨"f_", ["a", "b"], 0, none, ""⟩], []⟩

/-- The second of two colliding functions keeps what the first has no overload for. -/
theorem bindings_collidingFunctions :
    (libraryWrapper {} collidingFunctions).1 ∈ (synthesize {} collidingFunctions).wrappers ∧
      (libraryWrapper {} collidingFunctions).1.bindings.map (fun b => (b.signature, b.target)) =
        [(⟨"f_", 0, false⟩, .library "lib" "f$"), (⟨"f_", 1, false⟩, .library "lib" "f$"),
          (⟨"f_", 2, false⟩, .library "lib" "f_")] ∧
      skipsUnder (synthesize {} collidingFunctions).skipped "JLib" SkipReason.isDuplicate =
        [⟨"JLib", "f_", .duplicateSignature 0 false⟩,
          ⟨"JLib", "f_", .duplicateSignature 1 false⟩] := by
  have hw := mem_wrappers_synthesize.mpr (Or.inl (Eq.refl (libraryWrapper {} collidingFunctions).1))
  obtain ⟨hbindings, hduplicates, _⟩ := bindings_eq_firstOccurrences {} collidingFunctions hw
  refine ⟨hw, ?_, ?_⟩
  · rw [hbindings]
    decide +kernel
  · rw [show "JLib" = (libraryWrapper {} collidingFunctions).1.name by decide +kernel, hduplicates]
    decide +kernel

end BindingSynthesis.Synthesis
