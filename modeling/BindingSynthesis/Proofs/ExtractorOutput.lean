import BindingSynthesis.Bridge.Interpreter
import BindingSynthesis.Machine.InMemory
import BindingSynthesis.Proofs.CommentText
import BindingSynthesis.Proofs.LossyDecoding
import BindingSynthesis.Proofs.NormalForm

/-!
# BindingSynthesis.Proofs.ExtractorOutput

The document in the output of an extractor.

```
output   noise \n  …  noise \n   document   \n blank
lines    [  any lines       ]    document   [blank lines]
```

1. Octets that end with a line feed are decoded to a text that ends with one, and what
   follows a line feed is cut into lines by itself (`lines_append_newline`).
2. A text without line ends stands in one line (`lines_append_of_unbroken`).
3. The last line that is not blank is found before blank ones (`lastLine_append_cons`).
4. Hence the document is read as it was printed, whatever was printed before it
   (`documentIn_amid_noise`), and the bridge answers it (`extract_amid_noise`).
-/

namespace BindingSynthesis

namespace Text

/-! ## lines -/

/-- A character that ends no line starts the next one. -/
theorem lines_cons {c : Char} {rest : List Char} (hnewline : c ≠ '\n')
    (hreturn : c = '\r' → rest.head? ≠ some '\n') :
    lines (c :: rest) = (c :: (lines rest).headD []) :: (lines rest).tail := by
  rw [lines]
  · split <;> simp_all
  · exact hnewline
  · rintro after rfl rfl
    simp at hreturn

/-- A character joins the line that the text behind it starts with.  The line feed ends that
line, if not an earlier one, so what follows the line feed does not matter to it. -/
theorem lines_cons_append_newline {c : Char} {rest ys : List Char} (hnewline : c ≠ '\n')
    (hreturn : c = '\r' → rest ≠ [] ∧ rest.head? ≠ some '\n')
    (h : lines (rest ++ '\n' :: ys) = lines (rest ++ ['\n']) ++ lines ys) :
    lines (c :: rest ++ '\n' :: ys) = lines (c :: rest ++ ['\n']) ++ lines ys := by
  have hhead (zs : List Char) : c = '\r' → (rest ++ '\n' :: zs).head? ≠ some '\n' := by
    intro hc
    rw [List.head?_append_of_ne_nil _ (hreturn hc).1]
    exact (hreturn hc).2
  have hsome : lines (rest ++ ['\n']) ≠ [] := by simp [CommentText.lines_eq_nil_iff]
  obtain ⟨line, more, hlines⟩ := List.exists_cons_of_ne_nil hsome
  rw [List.cons_append, List.cons_append, lines_cons hnewline (hhead ys),
    lines_cons hnewline (hhead []), h, hlines]
  rfl

/-- **A line feed cuts a text**: what follows it is cut into lines by itself. -/
theorem lines_append_newline (xs ys : List Char) :
    lines (xs ++ '\n' :: ys) = lines (xs ++ ['\n']) ++ lines ys := by
  fun_induction lines xs with
  | case1 => simp [lines]
  | case2 rest ih => simp [lines, ih]
  | case3 rest ih => simp [lines, ih]
  | case4 c rest hnewline _ hrest ih =>
      obtain rfl := CommentText.lines_eq_nil_iff.mp hrest
      -- A carriage return at the end meets the line feed, and both end one line.
      by_cases hc : c = '\r'
      · simp [hc, lines]
      · exact lines_cons_append_newline hnewline (absurd · hc) ih
  | case5 c rest hnewline hreturn line more hrest ih =>
      refine lines_cons_append_newline hnewline (fun hc => ?_) ih
      cases rest with
      | nil => cases hrest
      | cons d rest => simpa using fun hd => hreturn rest hc (by rw [hd])

/-- The text ends no line. -/
def IsUnbroken (cs : List Char) : Prop := '\n' ∉ cs ∧ '\r' ∉ cs

instance : DecidablePred IsUnbroken := fun cs =>
  inferInstanceAs (Decidable ('\n' ∉ cs ∧ '\r' ∉ cs))

/-- A text that ends no line stands in the line that it starts. -/
theorem lines_append_of_unbroken {cs : List Char} (hcs : IsUnbroken cs) (hne : cs ≠ [])
    (rest : List Char) :
    lines (cs ++ rest) = (cs ++ (lines rest).headD []) :: (lines rest).tail := by
  induction cs with
  | nil => exact absurd rfl hne
  | cons c cs ih =>
      simp only [IsUnbroken, List.mem_cons, not_or] at hcs ih
      rw [List.cons_append, lines_cons (Ne.symm hcs.1.1) (absurd · (Ne.symm hcs.2.1))]
      cases cs with
      | nil => rfl
      | cons d cs =>
          rw [ih ⟨hcs.1.2, hcs.2.2⟩ (List.cons_ne_nil d cs)]
          rfl

/-! ## blank lines -/

theorem trimChars_eq_nil_iff {cs : List Char} : trimChars cs = [] ↔ cs.all isBlankChar := by
  simpa [trim, isBlank] using trim_eq_empty_iff (s := String.ofList cs)

/-- The lines of a blank text are blank. -/
theorem isBlank_of_mem_lines {cs line : List Char} (hcs : cs.all isBlankChar)
    (hline : line ∈ lines cs) : line.all isBlankChar := by
  rw [List.all_eq_true] at hcs ⊢
  intro c hc
  by_cases hnewline : c = '\n'
  · rw [hnewline]
    decide
  by_cases hreturn : c = '\r'
  · rw [hreturn]
    decide
  exact hcs c ((CommentText.mem_lines ⟨hnewline, hreturn⟩ cs).mp ⟨line, hline, hc⟩)

end Text

namespace Bridge

open Text

/-! ## the last line -/

/-- The last line that is not blank is found before any blank ones. -/
theorem lastLine_append_cons {line : List Char} (hline : line.all isBlankChar = false)
    (before : List (List Char)) {behind : List (List Char)}
    (hbehind : ∀ other ∈ behind, other.all isBlankChar) :
    lastLine (before ++ line :: behind) = line := by
  have hnone : behind.reverse.find? (fun other => !(trimChars other).isEmpty) = none := by
    simpa [trimChars_eq_nil_iff] using hbehind
  have hfound : (trimChars line).isEmpty = false := by
    rw [List.isEmpty_eq_false_iff, Ne, trimChars_eq_nil_iff, hline]
    exact Bool.false_ne_true
  simp [lastLine, hnone, hfound]

/-! ## documents among other output -/

/-- The octets end with a line feed, unless there are none. -/
def EndsLine (noise : List UInt8) : Prop := noise = [] ∨ noise.getLast? = some 0x0A

/-- The text is one line, and not a blank one. -/
structure IsLine (document : String) : Prop where
  unbroken : IsUnbroken document.toList
  not_blank : isBlank document = false

/-- The text ends a line and is blank from there on, unless it is empty. -/
def IsTrailer (trailer : String) : Prop :=
  trailer = "" ∨ ∃ blank, isBlank blank ∧ (trailer = "\n" ++ blank ∨ trailer = "\r\n" ++ blank)

/-- What may follow a line leaves it as it is, and only blank lines follow. -/
theorem IsTrailer.lines {trailer : String} (h : IsTrailer trailer) :
    (lines trailer.toList).headD [] = [] ∧
      ∀ line ∈ (lines trailer.toList).tail, line.all isBlankChar := by
  have hblank {blank : String} (h : isBlank blank) :
      ∀ line ∈ Text.lines blank.toList, line.all isBlankChar :=
    fun line => isBlank_of_mem_lines h
  obtain rfl | ⟨blank, hb, rfl | rfl⟩ := h
  · simp [Text.lines]
  · simpa [Text.lines] using hblank hb
  · simpa [Text.lines] using hblank hb

theorem IsLine.ne_empty {document : String} (h : IsLine document) : document ≠ "" := by
  rintro rfl
  simpa using h.not_blank

/-- Octets that end with a line feed are cut into lines by themselves. -/
theorem EndsLine.lines_append {noise : List UInt8} (h : EndsLine noise) (cs : List Char) :
    lines (Utf8.decodeLossy noise ++ cs) = lines (Utf8.decodeLossy noise) ++ lines cs := by
  obtain rfl | hlast := h
  · rfl
  · obtain ⟨before, rfl⟩ := List.getLast?_eq_some_iff.mp hlast
    have hdecode : Utf8.decodeLossy (before ++ [0x0A]) = Utf8.decodeLossy before ++ ['\n'] := by
      have hfeed : Utf8.encode "\n" = [0x0A] := rfl
      simpa [hfeed] using Utf8.decodeLossy_around before (s := "\n") (by decide) []
    rw [hdecode, List.append_assoc, List.singleton_append, lines_append_newline]

/-- **The document in an output** is what was printed on the last line, whatever the octets
before it are. -/
theorem documentIn_amid_noise (library : String) {noise : List UInt8} {document trailer : String}
    (hnoise : EndsLine noise) (hdocument : IsLine document) (htrailer : IsTrailer trailer) :
    documentIn library (noise ++ Utf8.encode document ++ Utf8.encode trailer) =
      documentOf library document := by
  have hne : document.toList ≠ [] := by simpa using hdocument.ne_empty
  have hdecode : Utf8.decodeLossy (noise ++ Utf8.encode document ++ Utf8.encode trailer) =
      Utf8.decodeLossy noise ++ (document.toList ++ trailer.toList) := by
    rw [Utf8.decodeLossy_around noise hdocument.ne_empty, Utf8.decodeLossy_encode, List.append_assoc]
  have hlines : lines (document.toList ++ trailer.toList) =
      document.toList :: (lines trailer.toList).tail := by
    rw [lines_append_of_unbroken hdocument.unbroken hne, htrailer.lines.1, List.append_nil]
  rw [documentIn, hdecode, hnoise.lines_append, hlines,
    lastLine_append_cons hdocument.not_blank _ htrailer.lines.2, String.ofList_toList]

/-! ## runs of an extractor -/

/-- A bridge that was not released answers what the run of its extractor gives. -/
theorem run_extract_ofInterpreter {σ : Type} (machine : Machine (StateM σ)) (interpreter : Path)
    (script library : String) (includeOnly : List String) (s : σ) :
    (((ofInterpreter machine interpreter script).extract library includeOnly).run false).run s =
      let (ran, s') := (machine.run interpreter (arguments script library includeOnly)).run s
      ((answerOf library ran, false), s') :=
  rfl

/-- **An extractor may print anything beforehand**: where a run ends well and has printed a
document as a line of its own, with nothing but white space behind it, a bridge that was not
released answers what the document says, or the fault in it. -/
theorem extract_amid_noise {σ : Type} (machine : Machine (StateM σ)) (interpreter : Path)
    (script library : String) (includeOnly : List String) {s s' : σ} {result : RunResult}
    {noise : List UInt8} {document trailer : String}
    (hrun : (machine.run interpreter (arguments script library includeOnly)).run s =
      (.ok result, s'))
    (hsuccess : result.status.isSuccess)
    (houtput : result.output = noise ++ Utf8.encode document ++ Utf8.encode trailer)
    (hnoise : EndsLine noise) (hdocument : IsLine document) (htrailer : IsTrailer trailer) :
    (((ofInterpreter machine interpreter script).extract library includeOnly).run false).run s =
      (((MetadataDocument.parse document).mapError (.malformed library), false), s') := by
  rw [run_extract_ofInterpreter, hrun]
  have hanswer : answerOf library (.ok result) = documentOf library document := by
    rw [answerOf, if_pos hsuccess, houtput, documentIn_amid_noise library hnoise hdocument htrailer]
  simp only [hanswer, documentOf]

/-- A script that prints an octet of no text, a lone carriage return and what looks like a
document, and then a document and blank lines. -/
def noisyScript : String :=
  "printf '\\377 \\r\x7b\"error\": \"noise\"\x7d\\r\\n'\n" ++
    "printf '%s\\r\\n \\t\\n' '\x7b\"library\": \"numbers\"\x7d'"

/-- The output of the script before its document. -/
def scriptNoise : List UInt8 := 0xFF :: Utf8.encode " \r\x7b\"error\": \"noise\"\x7d\r\n"

/-- The document that the script prints. -/
def scriptDocument : String := "\x7b\"library\": \"numbers\"\x7d"

/-- A machine with nothing but programs. -/
def bareMachine : InMemory := ⟨InMemory.systemTree, [], []⟩

theorem extract_noisyScript :
    (InMemory.machine.run ⟨"/bin/sh"⟩ (arguments noisyScript "numbers" [])).run bareMachine =
        (.ok ⟨.code 0, scriptNoise ++ Utf8.encode scriptDocument ++ Utf8.encode "\r\n \t\n", []⟩,
          bareMachine) ∧
      EndsLine scriptNoise ∧ IsLine scriptDocument ∧ IsTrailer "\r\n \t\n" ∧
      (((ofInterpreter InMemory.machine ⟨"/bin/sh"⟩ noisyScript).extract "numbers" []).run false).run
          bareMachine =
        ((.ok ⟨some "numbers", none, [], []⟩, false), bareMachine) := by
  have hrun : (InMemory.machine.run ⟨"/bin/sh"⟩ (arguments noisyScript "numbers" [])).run bareMachine =
      (.ok ⟨.code 0, scriptNoise ++ Utf8.encode scriptDocument ++ Utf8.encode "\r\n \t\n", []⟩,
        bareMachine) := by
    refine Prod.ext ?_ rfl
    decide +kernel
  have hnoise : EndsLine scriptNoise := .inr (by decide +kernel)
  have hdocument : IsLine scriptDocument := ⟨by decide +kernel, by decide +kernel⟩
  have htrailer : IsTrailer "\r\n \t\n" := .inr ⟨" \t\n", by decide +kernel, .inr rfl⟩
  have hparse : MetadataDocument.parse scriptDocument = .ok ⟨some "numbers", none, [], []⟩ := by
    decide +kernel
  have hextract := extract_amid_noise InMemory.machine ⟨"/bin/sh"⟩ noisyScript "numbers" []
    hrun rfl rfl hnoise hdocument htrailer
  rw [hparse] at hextract
  exact ⟨hrun, hnoise, hdocument, htrailer, hextract⟩

end Bridge

end BindingSynthesis
