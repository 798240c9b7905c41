import BindingSynthesis.Plan.Format
import BindingSynthesis.Proofs.JsonRecords

/-!
# BindingSynthesis.Proofs.PlanFormat

A written plan is read back as the same plan.

1. Every part of a plan is decoded as itself from the reading of its written form
   (`decode_toJson`), a part of a record by one application of
   `Fields.Reads.field` for each field.
2. Calls and imports are kept before their fields are looked at, so they must not
   lie too deep; in a plan they lie five and four levels deep.
3. Numbers are read back below `2 ^ 64` only (`Plan.Representable`).
-/

namespace BindingSynthesis

open Json

/-! ## calls and imports -/

/-- A target is an object of one member, tagged with its case, and decodes to itself. -/
theorem Target.decode_toJson (t : Target) {level : Nat} (h : level < nestingLimit) :
    Target.decode (readingAt level t.toJson) = .ok t := by
  have hdeep : decide (nestingLimit ≤ level) = false := decide_eq_false (Nat.not_le.mpr h)
  have hstring := Decoder.string_readingAt (level + 1)
  cases t with
  | library modulePath callable =>
      have hfields := ((Fields.Reads.required "module" (hstring modulePath)).map Target.library)
        |>.field "callable" (hstring callable) (by simp)
      rw [toJson, readingAt, hdeep]
      exact Decoder.tagged_object rfl (by simp [membersAt, memberAt])
        (by simp [membersAt, memberAt, readingAt, Reading.keep]) hfields.decode
  | aliased aliasName modulePath callable =>
      have hfields := ((Fields.Reads.required "alias" (hstring aliasName)).map Target.aliased)
        |>.field "module" (hstring modulePath) (by simp)
        |>.field "callable" (hstring callable) (by simp)
      rw [toJson, readingAt, hdeep]
      exact Decoder.tagged_object rfl (by simp [membersAt, memberAt])
        (by simp [membersAt, memberAt, readingAt, Reading.keep]) hfields.decode
  | receiver method =>
      have hfields := (Fields.Reads.required "method" (hstring method)).map Target.receiver
      rw [toJson, readingAt, hdeep]
      exact Decoder.tagged_object rfl (by simp [membersAt, memberAt])
        (by simp [membersAt, memberAt, readingAt, Reading.keep]) hfields.decode

/-- Both forms of an import are tagged in the same way. -/
theorem Import.decode_toJson (i : Import) {level : Nat} (h : level < nestingLimit) :
    Import.decode (readingAt level i.toJson) = .ok i := by
  have hdeep : decide (nestingLimit ≤ level) = false := decide_eq_false (Nat.not_le.mpr h)
  have hstring := Decoder.string_readingAt (level + 1)
  cases i with
  | plain modulePath =>
      have hfields := (Fields.Reads.required "module" (hstring modulePath)).map Import.plain
      rw [toJson, readingAt, hdeep]
      exact Decoder.tagged_object rfl (by simp [membersAt, memberAt])
        (by simp [membersAt, memberAt, readingAt, Reading.keep]) hfields.decode
  | aliased aliasName modulePath =>
      have hfields := ((Fields.Reads.required "alias" (hstring aliasName)).map Import.aliased)
        |>.field "module" (hstring modulePath) (by simp)
      rw [toJson, readingAt, hdeep]
      exact Decoder.tagged_object rfl (by simp [membersAt, memberAt])
        (by simp [membersAt, memberAt, readingAt, Reading.keep]) hfields.decode

/-! ## bindings -/

/-- A level is its bare name. -/
theorem WrapperKind.decode_toJson (k : WrapperKind) (level : Nat) :
    WrapperKind.decode (readingAt level k.toJson) = .ok k := by
  cases k <;> exact Decoder.choice_bare rfl

/-- A binding decodes to itself if its arity fits in 64 bits. -/
theorem Binding.decode_toJson {b : Binding} {level : Nat} (h : level + 1 < nestingLimit)
    (harity : b.arity < UInt64.size) :
    Binding.fields.decode (readingAt level b.toJson) = .ok b := by
  have hstring := Decoder.string_readingAt (level + 1)
  have hbool := Decoder.bool_readingAt (level + 1)
  have hfields :=
    ((Fields.Reads.required "ownerKind" (b.ownerKind.decode_toJson (level + 1))).map Binding.mk)
      |>.field "ownerName" (hstring b.ownerName) (by simp)
      |>.field "bindingName" (hstring b.name) (by simp)
      |>.field "arity" (Decoder.natural_readingAt (level + 1) harity) (by simp)
      |>.field "usesKeywordTail" (hbool b.keywordTail) (by simp)
      |>.field "callTarget" (b.target.decode_toJson h) (by simp)
      |>.field "requiresAlias" (hbool b.requiresAlias) (by simp)
      |>.field "doc" (hstring b.doc) (by simp)
  exact hfields.decode

/-! ## wrappers -/

/-- A wrapper decodes to itself where three more levels of nesting are allowed. -/
theorem Wrapper.decode_toJson {w : Wrapper} {level : Nat} (h : level + 3 < nestingLimit)
    (harity : ∀ b ∈ w.bindings, b.arity < UInt64.size) :
    Wrapper.fields.decode (readingAt level w.toJson) = .ok w := by
  have hstring := Decoder.string_readingAt (level + 1)
  have himports : Decoder.list Import.decode
      (readingAt (level + 1) (.array (w.imports.map Import.toJson))) = .ok w.imports :=
    Decoder.list_readingAt fun i _ => i.decode_toJson (Nat.lt_of_succ_lt h)
  have hbindings : Decoder.list Binding.fields.decode
      (readingAt (level + 1) (.array (w.bindings.map Binding.toJson))) = .ok w.bindings :=
    Decoder.list_readingAt fun b hb => Binding.decode_toJson h (harity b hb)
  have hfields :=
    ((Fields.Reads.required "kind" (w.kind.decode_toJson (level + 1))).map Wrapper.mk)
      |>.field "name" (hstring w.name) (by simp)
      |>.field "foreignName" (hstring w.foreignName) (by simp)
      |>.field "module" (hstring w.modulePath) (by simp)
      |>.field "doc" (hstring w.doc) (by simp)
      |>.field "imports" himports (by simp)
      |>.field "bindings" hbindings (by simp)
  exact hfields.decode

/-! ## plans -/

/-- The number in the reason fits into a machine word. -/
def SkipReason.Representable : SkipReason → Prop
  | .duplicateSignature arity _ => arity < UInt64.size
  | _ => True

instance : DecidablePred SkipReason.Representable
  | .duplicateSignature _ _ => inferInstanceAs (Decidable (_ < _))
  | .invalidName | .constructor | .ownerCollision => inferInstanceAs (Decidable True)

/-- Of the reasons, the one with an arity has to fit, the others are names. -/
theorem SkipReason.decode_toJson {r : SkipReason} {level : Nat} (h : r.Representable) :
    SkipReason.decode (readingAt level r.toJson) = .ok r := by
  cases r with
  | invalidName | constructor | ownerCollision => exact Decoder.choice_bare rfl
  | duplicateSignature arity keywordTail =>
      have hfields :=
        ((Fields.Reads.required "arity" (Decoder.natural_readingAt (level + 2) h)).map
          SkipReason.duplicateSignature)
        |>.field "keyword_tail" (Decoder.bool_readingAt (level + 2) keywordTail) (by simp)
      exact Decoder.choice_record rfl hfields.decode

/-- A log record decodes to itself with its reason. -/
theorem Skip.decode_toJson {s : Skip} {level : Nat} (h : s.reason.Representable) :
    Skip.fields.decode (readingAt level s.toJson) = .ok s := by
  have hstring := Decoder.string_readingAt (level + 1)
  have hreason : SkipReason.decode (readingAt (level + 1) s.reason.toJson) = .ok s.reason :=
    SkipReason.decode_toJson h
  have hfields := ((Fields.Reads.required "owner" (hstring s.owner)).map Skip.mk)
    |>.field "symbol" (hstring s.symbol) (by simp)
    |>.field "reason" hreason (by simp)
  exact hfields.decode

/-- The numbers in the plan fit into machine words. -/
def Plan.Representable (p : Plan) : Prop :=
  (∀ w ∈ p.wrappers, ∀ b ∈ w.bindings, b.arity < UInt64.size) ∧
    ∀ s ∈ p.skipped, s.reason.Representable

instance (p : Plan) : Decidable p.Representable := inferInstanceAs (Decidable (_ ∧ _))

/-- Part by part, a plan whose arities fit decodes to itself. -/
theorem Plan.decode_toJson {p : Plan} (h : p.Representable) :
    Plan.fields.decode (readingAt 0 p.toJson) = .ok p := by
  have hwrappers : Decoder.list Wrapper.fields.decode
      (readingAt 1 (.array (p.wrappers.map Wrapper.toJson))) = .ok p.wrappers :=
    Decoder.list_readingAt fun w hw => Wrapper.decode_toJson (by decide) (h.1 w hw)
  have hskipped : Decoder.list Skip.fields.decode
      (readingAt 1 (.array (p.skipped.map Skip.toJson))) = .ok p.skipped :=
    Decoder.list_readingAt fun s hs => Skip.decode_toJson (h.2 s hs)
  have hfields :=
    ((Fields.Reads.required "library" (Decoder.string_readingAt 1 p.library)).map Plan.mk)
      |>.field "owners" hwrappers (by simp)
      |>.field "skipped" hskipped (by simp)
  exact hfields.decode

/-- The indented text of a plan is parsed as that plan. -/
theorem Plan.parse_pretty {p : Plan} (h : p.Representable) :
    Plan.parse p.toJson.pretty = .ok p := by
  rw [parse, decode_pretty, decode_toJson h]

/-- So is the text without white space. -/
theorem Plan.parse_compact {p : Plan} (h : p.Representable) :
    Plan.parse p.toJson.compact = .ok p := by
  rw [parse, decode_compact, decode_toJson h]

/-- **The plan file loses nothing**: either form of a plan is read back as that
plan. -/
theorem Plan.parse_written (p : Plan) (h : p.Representable) :
    Plan.parse p.toJson.pretty = .ok p ∧ Plan.parse p.toJson.compact = .ok p :=
  ⟨parse_pretty h, parse_compact h⟩

/-- A plan with every kind of call, import and reason, the largest number, and
texts that need escapes. -/
def Plan.varied : Plan :=
  ⟨"a.b", [
    ⟨.libraryLevel, "JA_b", "a.b", "a.b", "say \"hi\"\n\x01\\ \u00e9",
      [.plain "a.b", .aliased "_a_b_c" "a.b.c"],
      [⟨.libraryLevel, "JA_b", "f", 0, false, .library "a.b" "f", false, "\t"⟩,
        ⟨.libraryLevel, "JA_b", "g", 18446744073709551615, false,
          .aliased "_a_b_c" "a.b.c" "g", true, ""⟩]⟩,
    ⟨.classLevel, "JC", "C", "a.b", "", [.plain "a.b"],
      [⟨.classLevel, "JC", "m", 1, true, .receiver "m", false, ""⟩]⟩],
    [⟨"JA_b", "1", .invalidName⟩, ⟨"JC", "C", .constructor⟩, ⟨"JC", "a.c.C", .ownerCollision⟩,
      ⟨"JC", "m", .duplicateSignature 10 true⟩]⟩

/-- A plan with every kind of target, import and log record comes back from both texts. -/
theorem Plan.parse_written_varied :
    varied.Representable ∧ Plan.parse varied.toJson.pretty = .ok varied ∧
      Plan.parse varied.toJson.compact = .ok varied :=
  have h : varied.Representable := by decide
  ⟨h, parse_written varied h⟩

end BindingSynthesis
