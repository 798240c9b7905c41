import BindingSynthesis.Proofs.JsonNumbers
import BindingSynthesis.Proofs.JsonRecords
import BindingSynthesis.Proofs.NormalForm

/-!
# BindingSynthesis.Proofs.LibraryFormat

Texts of metadata and the libraries that they describe.

```
text  ──▶  document  ──▶  library  ──write──▶  text  ──▶  the same library
```

1. The optional counts of a document fit into machine words, and the normal form
   does not make them larger (`representable_of_parse`, `representable_normalized`).
2. A written library is a document without an error, and a library in normal form is
   what that document describes (`document_toJson`, `parse_toJson`).
3. So the text of a document decides which of the four answers it gets, and a library
   that it describes is in normal form and is read back from its written form
   (`parse_classified`).
-/

namespace BindingSynthesis

open Json

/-! ## numbers -/

/-- The optional count of the callable fits into a machine word. -/
def Callable.Representable (c : Callable) : Prop := c.optionalCount < UInt64.size

/-- The optional counts in the library fit into machine words. -/
def Library.Representable (l : Library) : Prop := ∀ c ∈ l.callables, c.Representable

/-- A decoded callable can be written again: its count fits in 64 bits. -/
theorem Callable.yields_decode : Callable.fields.decode.Yields Callable.Representable := by
  -- The count is the third field: each earlier field leaves it open, each later one alone.
  have hname : (Callable.mk <$> Fields.withDefault "name" .nullableString "").Yields
      fun make => ∀ ps n doc path, (make ps n doc path).optionalCount = n :=
    (Fields.yields_withDefault "name" (Decoder.yields_true _) trivial).map
      fun _ _ _ _ _ _ => rfl
  have hnames : (Fields.single ["args", "params"] (.list .string) (some []) (some [])).Yields
      fun _ => True :=
    Fields.yields_single _ (Decoder.yields_true _) (fun _ _ => trivial) fun _ _ => trivial
  have hparams := hname.seq (R := fun make => ∀ n doc path, (make n doc path).optionalCount = n)
    hnames fun _ ps h _ => h ps
  have hcount := hparams.seq (R := fun make => ∀ doc path, (make doc path).Representable)
    (Fields.yields_withDefault "optionalCount" Decoder.yields_natural (a := 0) (by decide))
    fun _ n h hn doc path => (h n doc path).trans_lt hn
  have hdoc := hcount.seq (R := fun make => ∀ path, (make path).Representable)
    (Fields.yields_withDefault "doc" (Decoder.yields_true (.option .string)) (a := none) trivial)
    fun _ doc h _ => h doc
  have hmodule := hdoc.seq (R := Callable.Representable)
    (Fields.yields_withDefault "module" (Decoder.yields_true .nullableString) (a := "") trivial)
    fun _ path h _ => h path
  exact hmodule.decode

/-- So can the methods of a decoded class. -/
theorem ForeignClass.yields_decode : ForeignClass.fields.decode.Yields
    fun c => ∀ m ∈ c.methods, m.Representable := by
  have hname : (ForeignClass.mk <$> Fields.withDefault "name" .nullableString "").Yields
      fun make => ∀ path doc ms, (make path doc ms).methods = ms :=
    (Fields.yields_withDefault "name" (Decoder.yields_true _) trivial).map fun _ _ _ _ _ => rfl
  have hmodule := hname.seq (R := fun make => ∀ doc ms, (make doc ms).methods = ms)
    (Fields.yields_withDefault "module" (Decoder.yields_true .nullableString) (a := "") trivial)
    fun _ path h _ => h path
  have hdoc := hmodule.seq (R := fun make => ∀ ms, (make ms).methods = ms)
    (Fields.yields_withDefault "doc" (Decoder.yields_true (.option .string)) (a := none) trivial)
    fun _ doc h _ => h doc
  have hmethods := hdoc.seq (R := fun c => ∀ m ∈ c.methods, m.Representable)
    (Fields.yields_withDefault "methods" Callable.yields_decode.list (a := []) nofun)
    fun _ ms h hms => (h ms).symm ▸ hms
  exact hmethods.decode

/-- So can the library that a decoded document states, whatever name it is given. -/
theorem MetadataDocument.yields_decode : MetadataDocument.fields.decode.Yields
    fun d => ∀ name, (d.stated name).Representable := by
  have hlibrary :
      (MetadataDocument.mk <$> Fields.withDefault "library" (.option .string) none).Yields
        fun make => ∀ error fs cs,
          (make error fs cs).functions = fs ∧ (make error fs cs).classes = cs :=
    (Fields.yields_withDefault "library" (Decoder.yields_true _) trivial).map
      fun _ _ _ _ _ => ⟨rfl, rfl⟩
  have herror := hlibrary.seq
    (R := fun make => ∀ fs cs, (make fs cs).functions = fs ∧ (make fs cs).classes = cs)
    (Fields.yields_withDefault "error" (Decoder.yields_true (.option .string)) (a := none) trivial)
    fun _ error h _ => h error
  have hfunctions := herror.seq
    (R := fun make => ∀ cs, (∀ f ∈ (make cs).functions, f.Representable) ∧ (make cs).classes = cs)
    (Fields.yields_withDefault "functions" Callable.yields_decode.list (a := []) nofun)
    fun _ fs h hfs cs => ⟨(h fs cs).1.symm ▸ hfs, (h fs cs).2⟩
  have hclasses := hfunctions.seq (R := fun d => ∀ name, (d.stated name).Representable)
    (Fields.yields_withDefault "classes" ForeignClass.yields_decode.list (a := []) nofun)
    fun make cs h hcs name c hc => by
      obtain hc | hc := List.mem_append.mp hc
      · exact (h cs).1 c hc
      · obtain ⟨k, hk, hc⟩ := List.mem_flatMap.mp hc
        exact hcs k ((h cs).2 ▸ hk) c hc
  exact hclasses.decode

/-- **What a text states fits into machine words**. -/
theorem MetadataDocument.representable_of_parse {text : String} {d : MetadataDocument}
    (h : parse text = .ok d) (name : String) : (d.stated name).Representable :=
  yields_decode.decode h name

/-- Clamping a count does not make it larger, so the normal form can be written as well. -/
theorem Library.representable_normalized {l : Library} (h : l.Representable) :
    l.normalized.Representable := by
  intro c hc
  obtain ⟨d, hd, parent, rfl⟩ := exists_settled_of_mem_callables hc
  rw [Callable.Representable, Callable.optionalCount_settled]
  exact (Nat.min_le_left ..).trans_lt (h d hd)

/-! ## written libraries -/

namespace Json.Decoder

/-- A text is written as a string, which the tolerant decoder reads. -/
theorem nullableString_readingAt (level : Nat) (s : String) :
    nullableString (readingAt level (.string s)) = .ok s := rfl

/-- A missing text is written as `null` and read as missing. -/
theorem option_readingAt (level : Nat) (s? : Option String) :
    option string (readingAt level (.ofOption s?)) = .ok s? := by
  cases s? <;> rfl

/-- A list of texts is read back in its order. -/
theorem strings_readingAt (level : Nat) (ss : List String) :
    list string (readingAt level (.ofStrings ss)) = .ok ss :=
  list_readingAt fun s _ => string_readingAt (level + 1) s

end Json.Decoder

/-- A written callable decodes to itself at every depth. -/
theorem Callable.decode_toJson {c : Callable} (level : Nat) (h : c.Representable) :
    Callable.fields.decode (readingAt level c.toJson) = .ok c := by
  have hstring := Decoder.nullableString_readingAt (level + 1)
  have hparams : (Fields.single ["args", "params"] (.list .string) (some []) (some [])).Reads
      [(⟨some "args"⟩, readingAt (level + 1) (.ofStrings c.params))] c.params :=
    .single List.mem_cons_self (Decoder.strings_readingAt (level + 1) c.params)
  have hcount := Decoder.natural_readingAt (level + 1) h
  have hfields :=
    ((Fields.Reads.withDefault (b := "") "name" (hstring c.name)).map Callable.mk)
      |>.seq hparams (by simp)
      |>.seq (.withDefault (b := 0) "optionalCount" hcount) (by simp)
      |>.seq (.withDefault (b := none) "doc" (Decoder.option_readingAt (level + 1) c.doc)) (by simp)
      |>.seq (.withDefault (b := "") "module" (hstring c.modulePath)) (by simp)
  exact hfields.decode

/-- A written class decodes to itself, with its methods. -/
theorem ForeignClass.decode_toJson {c : ForeignClass} (level : Nat)
    (h : ∀ m ∈ c.methods, m.Representable) :
    ForeignClass.fields.decode (readingAt level c.toJson) = .ok c := by
  have hstring := Decoder.nullableString_readingAt (level + 1)
  have hmethods : Decoder.list Callable.fields.decode
      (readingAt (level + 1) (.array (c.methods.map Callable.toJson))) = .ok c.methods :=
    Decoder.list_readingAt fun m hm => Callable.decode_toJson _ (h m hm)
  have hfields :=
    ((Fields.Reads.withDefault (b := "") "name" (hstring c.name)).map ForeignClass.mk)
      |>.seq (.withDefault (b := "") "module" (hstring c.modulePath)) (by simp)
      |>.seq (.withDefault (b := none) "doc" (Decoder.option_readingAt (level + 1) c.doc)) (by simp)
      |>.seq (.withDefault (b := []) "methods" hmethods) (by simp)
  exact hfields.decode

/-- **A written library is a document** without an error. -/
theorem Library.document_toJson {l : Library} (h : l.Representable) :
    MetadataDocument.fields.decode (readingAt 0 l.toJson) =
      .ok ⟨some l.name, none, l.functions, l.classes⟩ := by
  have hname : Decoder.option .string (readingAt 1 (.string l.name)) = .ok (some l.name) := rfl
  have hfunctions : Decoder.list Callable.fields.decode
      (readingAt 1 (.array (l.functions.map Callable.toJson))) = .ok l.functions :=
    Decoder.list_readingAt fun f hf =>
      Callable.decode_toJson _ (h f (List.mem_append_left _ hf))
  have hclasses : Decoder.list ForeignClass.fields.decode
      (readingAt 1 (.array (l.classes.map ForeignClass.toJson))) = .ok l.classes :=
    Decoder.list_readingAt fun c hc => ForeignClass.decode_toJson _ fun m hm =>
      h m (List.mem_append_right _ (List.mem_flatMap.mpr ⟨c, hc, hm⟩))
  have hfields :=
    ((Fields.Reads.withDefault (b := none) "library" hname).map MetadataDocument.mk)
      |>.seq (.absent "error" (.option .string) none) (by simp)
      |>.seq (.withDefault (b := []) "functions" hfunctions) (by simp)
      |>.seq (.withDefault (b := []) "classes" hclasses) (by simp)
  exact hfields.decode

namespace Library

/-- The library that the text of a written library in normal form describes. -/
theorem ofDocument_written {l : Library} (h : l.IsNormal) :
    ofDocument ⟨some l.name, none, l.functions, l.classes⟩ = .ok l :=
  ofDocument_eq_ok_iff.mpr ⟨rfl, l.name, rfl, h.named, (normalized_eq_self h).symm⟩

/-- **A library in normal form is read back** from either of its written forms. -/
theorem parse_toJson {l : Library} (h : l.IsNormal) (hfits : l.Representable) :
    parse l.toJson.compact = .ok l ∧ parse l.toJson.pretty = .ok l := by
  constructor
  · rw [parse, MetadataDocument.parse, decode_compact, document_toJson hfits]
    exact ofDocument_written h
  · rw [parse, MetadataDocument.parse, decode_pretty, document_toJson hfits]
    exact ofDocument_written h

/-- A text describes this library exactly if it is that of a valid document. -/
theorem parse_eq_ok_iff {text : String} {l : Library} : parse text = .ok l ↔
    ∃ d, MetadataDocument.parse text = .ok d ∧ ofDocument d = .ok l := by
  rw [parse]
  cases MetadataDocument.parse text <;> simp

/-- The error that an extractor reports reaches the caller with the library it names. -/
theorem parse_eq_extractor_iff {text library message : String} :
    parse text = .error (.extractor library message) ↔
      ∃ d, MetadataDocument.parse text = .ok d ∧ d.error = some message ∧
        library = d.library.getD "" := by
  rw [parse]
  cases MetadataDocument.parse text <;> simp [ofDocument_eq_extractor_iff]

/-- A document without a usable name is told from one that reports an error. -/
theorem parse_eq_missingName_iff {text : String} : parse text = .error .missingName ↔
    ∃ d, MetadataDocument.parse text = .ok d ∧ d.error = none ∧
      ∀ name, d.library = some name → Text.trim name = "" := by
  rw [parse]
  cases MetadataDocument.parse text <;> simp [ofDocument_eq_missingName_iff]

/-- **A text is judged by the document that it holds**.  It describes a library exactly
if that has no error and a name that is not blank; it tells of a failed extraction
exactly if there is an error, and lacks a name exactly if there is neither.  The
library is in normal form, has what the document states in the order of the document,
and is read back from either of its written forms. -/
theorem parse_classified (text : String) :
    ((∃ l, parse text = .ok l) ↔ ∃ d, MetadataDocument.parse text = .ok d ∧ d.error = none ∧
      ∃ name, d.library = some name ∧ Text.trim name ≠ "") ∧
    ((∃ library message, parse text = .error (.extractor library message)) ↔
      ∃ d, MetadataDocument.parse text = .ok d ∧ d.error ≠ none) ∧
    (parse text = .error .missingName ↔
      ∃ d, MetadataDocument.parse text = .ok d ∧ d.error = none ∧
        ∀ name, d.library = some name → Text.trim name = "") ∧
    ∀ l, parse text = .ok l →
      l.IsNormal ∧ (∃ d, MetadataDocument.parse text = .ok d ∧ d.Describes l) ∧
        parse l.toJson.compact = .ok l ∧ parse l.toJson.pretty = .ok l := by
  refine ⟨?_, ?_, parse_eq_missingName_iff, ?_⟩
  · simp only [parse_eq_ok_iff, ofDocument_eq_ok_iff]
    constructor
    · rintro ⟨-, d, hd, herror, name, hlibrary, hname, rfl⟩
      exact ⟨d, hd, herror, name, hlibrary, hname⟩
    · rintro ⟨d, hd, herror, name, hlibrary, hname⟩
      exact ⟨_, d, hd, herror, name, hlibrary, hname, rfl⟩
  · simp only [parse_eq_extractor_iff, Option.ne_none_iff_exists']
    constructor
    · rintro ⟨-, message, d, hd, herror, -⟩
      exact ⟨d, hd, message, herror⟩
    · rintro ⟨d, hd, message, herror⟩
      exact ⟨_, message, d, hd, herror, rfl⟩
  · intro l hl
    obtain ⟨d, hd, hdocument⟩ := parse_eq_ok_iff.mp hl
    obtain ⟨-, name, hlibrary, hname, rfl⟩ := ofDocument_eq_ok_iff.mp hdocument
    have hnormal : (d.stated name).normalized.IsNormal := isNormal_normalized hname
    have hfits := representable_normalized (MetadataDocument.representable_of_parse hd name)
    exact ⟨hnormal, ⟨d, hd, d.describes_normalized hlibrary⟩, parse_toJson hnormal hfits⟩

/-- A text with a module left out, another name for the parameters and too large a
count. -/
def looseText : String :=
  "\x7b\"library\": \"lib\", \"error\": null, \"functions\": [\x7b\"name\": \"f\", " ++
    "\"params\": [\"a\"], \"optionalCount\": 18446744073709551615\x7d], " ++
    "\"classes\": [\x7b\"name\": \"K\", \"module\": null, " ++
    "\"methods\": [\x7b\"name\": \"run\", \"module\": \"m\"\x7d, \x7b\x7d]\x7d]\x7d"

/-- The library of that text. -/
def looseLibrary : Library :=
  ⟨"lib", [⟨"f", ["a"], 1, none, "lib"⟩],
    [⟨"K", "", none, [⟨"run", [], 0, none, "m"⟩, ⟨"", [], 0, none, ""⟩]⟩]⟩

/-- A document that leaves much to the defaults, as the normal form it is read to. -/
theorem parse_looseText :
    parse looseText = .ok looseLibrary ∧ looseLibrary.IsNormal ∧
      parse looseLibrary.toJson.compact = .ok looseLibrary := by
  have hparse : parse looseText = .ok looseLibrary := by decide +kernel
  obtain ⟨-, -, -, hlibrary⟩ := parse_classified looseText
  obtain ⟨hnormal, -, hcompact, -⟩ := hlibrary looseLibrary hparse
  exact ⟨hparse, hnormal, hcompact⟩

end Library

end BindingSynthesis
