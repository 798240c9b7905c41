import BindingSynthesis.Proofs.FirstOccurrence
import BindingSynthesis.Synthesis

/-!
# BindingSynthesis.Proofs.Settling

What `settle` admits and what it records, in terms of the offers alone.

1. The admitted bindings are the overloads that come first with their signature
   (`bindings_settle`).
2. The records of duplicates are the other overloads, in order
   (`duplicates_settle`), and the records of refusals are the refused symbols, in
   order (`refusals_settle`).
3. Every record stands under the name of the wrapper (`owner_of_mem_skipped_settle`).
-/

namespace BindingSynthesis

namespace SkipReason

/-- The overload had a signature that was taken. -/
def isDuplicate : SkipReason → Bool
  | .duplicateSignature .. => true
  | _ => false

/-- The symbol was refused, whatever overloads it has. -/
def isRefusal : SkipReason → Bool
  | .invalidName | .constructor => true
  | _ => false

end SkipReason

namespace Synthesis

/-! ## what is offered -/

/-- The overload of an offer, with the symbol that offers it. -/
def Offer.overload? : Offer → Option (String × Binding)
  | .refused .. => none
  | .overload symbol b => some (symbol, b)

/-- The refused symbol of an offer, with the reason. -/
def Offer.refusal? : Offer → Option (String × SkipReason)
  | .refused symbol reason => some (symbol, reason)
  | .overload .. => none

/-- The overloads among offers, in order. -/
def overloads (offers : List Offer) : List (String × Binding) := offers.filterMap Offer.overload?

/-- The refusals among offers, in order. -/
def refusals (offers : List Offer) : List (String × SkipReason) := offers.filterMap Offer.refusal?

@[simp] theorem overloads_cons_overload (symbol : String) (b : Binding) (offers : List Offer) :
    overloads (.overload symbol b :: offers) = (symbol, b) :: overloads offers := rfl

@[simp] theorem refusals_cons_refused (symbol : String) (reason : SkipReason)
    (offers : List Offer) :
    refusals (.refused symbol reason :: offers) = (symbol, reason) :: refusals offers := rfl

@[simp] theorem refusals_cons_overload (symbol : String) (b : Binding) (offers : List Offer) :
    refusals (.overload symbol b :: offers) = refusals offers := rfl

/-- The key by which overloads are settled. -/
def overloadKey (x : String × Binding) : Signature := x.2.signature

/-! ## what becomes of it -/

theorem settle_cons_of_mem {taken : List Signature} {b : Binding} (h : b.signature ∈ taken)
    (owner symbol : String) (offers : List Offer) :
    settle owner taken (.overload symbol b :: offers) =
      ⟨(settle owner taken offers).bindings,
        ⟨owner, symbol, .duplicateSignature b.arity b.keywordTail⟩ ::
          (settle owner taken offers).skipped⟩ := by
  rw [settle, if_pos h]

theorem settle_cons_of_not_mem {taken : List Signature} {b : Binding} (h : b.signature ∉ taken)
    (owner symbol : String) (offers : List Offer) :
    settle owner taken (.overload symbol b :: offers) =
      ⟨b :: (settle owner (b.signature :: taken) offers).bindings,
        (settle owner (b.signature :: taken) offers).skipped⟩ := by
  rw [settle, if_neg h]

theorem settle_cons_refused (owner symbol : String) (reason : SkipReason) (taken : List Signature)
    (offers : List Offer) :
    settle owner taken (.refused symbol reason :: offers) =
      ⟨(settle owner taken offers).bindings,
        ⟨owner, symbol, reason⟩ :: (settle owner taken offers).skipped⟩ := rfl

/-- **What is admitted**: the overloads that come first with their signature. -/
theorem bindings_settle (owner : String) (taken : List Signature) (offers : List Offer) :
    (settle owner taken offers).bindings =
      (firstsAfter overloadKey taken (overloads offers)).map Prod.snd := by
  induction offers generalizing taken with
  | nil => rfl
  | cons offer offers ih =>
      cases offer with
      | refused symbol reason => exact ih taken
      | overload symbol b =>
          rw [overloads_cons_overload]
          by_cases hb : overloadKey (symbol, b) ∈ taken
          · rw [settle_cons_of_mem hb, firstsAfter_cons_of_mem hb]
            exact ih taken
          · rw [settle_cons_of_not_mem hb, firstsAfter_cons_of_not_mem hb, List.map_cons]
            exact congrArg _ (ih _)

/-- The offers refuse symbols for reasons of their own only. -/
def RefusesOnly (offers : List Offer) : Prop :=
  ∀ symbol reason, Offer.refused symbol reason ∈ offers → reason.isRefusal = true

theorem RefusesOnly.tail {offer : Offer} {offers : List Offer} (h : RefusesOnly (offer :: offers)) :
    RefusesOnly offers := fun symbol reason hm => h symbol reason (List.mem_cons_of_mem _ hm)

theorem isDuplicate_eq_false_of_isRefusal {reason : SkipReason} (h : reason.isRefusal = true) :
    reason.isDuplicate = false := by
  cases reason <;> first | rfl | cases h

/-- **What is recorded as a duplicate**: the overloads that repeat a signature. -/
theorem duplicates_settle (owner : String) (taken : List Signature) {offers : List Offer}
    (h : RefusesOnly offers) :
    ((settle owner taken offers).skipped.filter fun s => s.reason.isDuplicate) =
      (repeatsAfter overloadKey taken (overloads offers)).map fun x =>
        ⟨owner, x.1, .duplicateSignature x.2.arity x.2.keywordTail⟩ := by
  induction offers generalizing taken with
  | nil => rfl
  | cons offer offers ih =>
      have ih := fun taken => ih taken h.tail
      cases offer with
      | refused symbol reason =>
          have hr := isDuplicate_eq_false_of_isRefusal (h symbol reason List.mem_cons_self)
          rw [settle_cons_refused, List.filter_cons_of_neg (by simp [hr])]
          exact ih taken
      | overload symbol b =>
          rw [overloads_cons_overload]
          have hdup : (SkipReason.duplicateSignature b.arity b.keywordTail).isDuplicate = true :=
            rfl
          by_cases hb : overloadKey (symbol, b) ∈ taken
          · rw [settle_cons_of_mem hb, repeatsAfter_cons_of_mem hb, List.map_cons,
              List.filter_cons, if_pos hdup]
            exact congrArg _ (ih taken)
          · rw [settle_cons_of_not_mem hb, repeatsAfter_cons_of_not_mem hb]
            exact ih _

/-- **What is recorded as refused**: the refused symbols. -/
theorem refusals_settle (owner : String) (taken : List Signature) {offers : List Offer}
    (h : RefusesOnly offers) :
    ((settle owner taken offers).skipped.filter fun s => s.reason.isRefusal) =
      (refusals offers).map fun x => ⟨owner, x.1, x.2⟩ := by
  induction offers generalizing taken with
  | nil => rfl
  | cons offer offers ih =>
      have ih := fun taken => ih taken h.tail
      cases offer with
      | refused symbol reason =>
          rw [settle_cons_refused, refusals_cons_refused, List.map_cons,
            List.filter_cons, if_pos (h symbol reason List.mem_cons_self)]
          exact congrArg _ (ih taken)
      | overload symbol b =>
          rw [refusals_cons_overload]
          by_cases hb : b.signature ∈ taken
          · rw [settle_cons_of_mem hb, List.filter_cons_of_neg (by simp [SkipReason.isRefusal])]
            exact ih taken
          · rw [settle_cons_of_not_mem hb]
            exact ih _

/-- Everything logged while settling is logged for the owner. -/
theorem owner_of_mem_skipped_settle {owner : String} {taken : List Signature} {offers : List Offer}
    {s : Skip} (h : s ∈ (settle owner taken offers).skipped) : s.owner = owner := by
  induction offers generalizing taken with
  | nil => cases h
  | cons offer offers ih =>
      cases offer with
      | refused symbol reason =>
          cases List.mem_cons.mp h with
          | inl he => rw [he]
          | inr hm => exact ih hm
      | overload symbol b =>
          by_cases hb : b.signature ∈ taken
          · rw [settle_cons_of_mem hb] at h
            cases List.mem_cons.mp h with
            | inl he => rw [he]
            | inr hm => exact ih hm
          · rw [settle_cons_of_not_mem hb] at h
            exact ih h

end Synthesis

end BindingSynthesis
