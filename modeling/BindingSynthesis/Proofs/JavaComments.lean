import BindingSynthesis.Library.Document
import BindingSynthesis.Proofs.CommentText
import BindingSynthesis.Proofs.JavaOverloads

/-!
# BindingSynthesis.Proofs.JavaComments

Where the comments of a generated class end.

1. The source of a class is code and block comments in turn (`join_fragments`),
   under one line comment.
2. A block comment ends where it should exactly if its text has no comment end,
   and it has a backslash exactly if its text has one (`isClosed_blockComment`).
3. Doc texts are prepared for comments, names are not.  So the comments of a class
   end where they should exactly if the names in them allow it
   (`commentsClosed_iff`).
-/

namespace BindingSynthesis

open CommentText Text

namespace Java

/-! ## block comments -/

/-- A block comment ends at its end and nowhere before, and has no backslash, with
which Java would write any character. -/
def IsClosed (block : String) : Prop :=
  ∃ body, block.toList = body ++ commentEnd ++ ['\n'] ∧ ¬commentEnd <:+: body ∧ '\\' ∉ body

/-- A line of the text of a block comment. -/
def commentLine (indent line : List Char) : List Char :=
  if line = [] then indent ++ [' ', '*', '\n'] else indent ++ [' ', '*', ' '] ++ line ++ ['\n']

/-- A block comment without its end. -/
def commentBody (indent text : List Char) : List Char :=
  indent ++ ['/', '*', '*', '\n'] ++ (lines text).flatMap (commentLine indent) ++ (indent ++ [' '])

/-- A block comment is its indented lines, the end mark and a line break. -/
theorem toList_blockComment (indent text : String) :
    (blockComment indent text).toList =
      commentBody indent.toList text.toList ++ commentEnd ++ ['\n'] := by
  have hline : (fun line : List Char => (if line = [] then indent ++ " *\n"
      else indent ++ " * " ++ String.ofList line ++ "\n").toList) = commentLine indent.toList := by
    funext line
    rw [commentLine]
    split <;> simp
  simp [blockComment, commentLines, String.toList_join, linesOf, List.flatMap_map, hline,
    commentBody, commentEnd]

section

variable {indent : List Char} (hindent : ∀ c ∈ indent, c = ' ')
include hindent

/-- The indentation has no slash in it, so it can complete no end mark. -/
theorem slash_not_mem_indent : '/' ∉ indent := fun h => absurd (hindent _ h) (by decide)

/-- A comment line has an end mark just when the text of that line has one. -/
theorem commentEnd_infix_commentLine (line : List Char) :
    commentEnd <:+: commentLine indent line ↔ commentEnd <:+: line := by
  have hslash := slash_not_mem_indent hindent
  have hend : ¬commentEnd <:+: ['\n'] := by decide
  rw [commentLine]
  split
  · next hline =>
      have h : ¬commentEnd <:+: indent ++ [' ', '*', '\n'] := commentEnd_absent (by simp [hslash])
      simp only [hline, h, false_iff]
      decide
  · have hstart : ¬commentEnd <:+: indent ++ [' ', '*', ' '] :=
      commentEnd_absent (by simp [hslash])
    rw [commentEnd] at *
    rw [pair_infix_append_of_head (by decide), pair_infix_append_of_getLast (by simp)]
    simp only [hstart, hend, false_or, or_false]

/-- **A block comment ends early exactly if its text has a comment end**. -/
theorem commentEnd_infix_commentBody (text : List Char) :
    commentEnd <:+: commentBody indent text ↔ commentEnd <:+: text := by
  have hslash := slash_not_mem_indent hindent
  have hlast : indent.getLast? ≠ some '*' :=
    fun h => absurd (hindent _ (List.mem_of_getLast? h)) (by decide)
  have hstart : ¬commentEnd <:+: indent ++ ['/', '*', '*', '\n'] := by
    rw [commentEnd, pair_infix_append_of_getLast hlast, not_or]
    exact ⟨commentEnd_absent hslash, by decide⟩
  have hend : ¬commentEnd <:+: indent ++ [' '] := commentEnd_absent (by simp [hslash])
  have hhead : (indent ++ [' ']).head? ≠ some '/' := fun h =>
    absurd (List.mem_of_head? h) (by simp [hslash])
  have hlines : commentEnd <:+: (lines text).flatMap (commentLine indent) ↔
      commentEnd <:+: text := by
    rw [← commentEnd_infix_lines text, commentEnd, pair_infix_flatMap]
    · exact exists_congr fun line =>
        and_congr_right fun _ => commentEnd_infix_commentLine hindent line
    · intro line
      rw [commentLine]
      split
      · simp
      · rw [List.getLast?_concat]
        decide
  rw [commentBody, commentEnd] at *
  rw [pair_infix_append_of_head hhead, pair_infix_append_of_getLast (by simp)]
  simp only [hstart, hend, hlines, false_or, or_false]

/-- Framing the lines adds no backslash and drops none. -/
theorem backslash_mem_commentBody (text : List Char) :
    '\\' ∈ commentBody indent text ↔ '\\' ∈ text := by
  have hbackslash : '\\' ∉ indent := fun h => absurd (hindent _ h) (by decide)
  have hline (line : List Char) : '\\' ∈ commentLine indent line ↔ '\\' ∈ line := by
    rw [commentLine]
    split <;> simp_all
  rw [← mem_lines (by decide) text]
  simp [commentBody, hbackslash, hline]

end

/-- **A block comment is closed exactly if its text is fit for it**. -/
theorem isClosed_blockComment {indent : String} (hindent : ∀ c ∈ indent.toList, c = ' ')
    (text : String) :
    IsClosed (blockComment indent text) ↔ FitsComment text.toList := by
  rw [FitsComment, ← commentEnd_infix_commentBody hindent, ← backslash_mem_commentBody hindent]
  constructor
  · rintro ⟨body, hbody, h⟩
    rw [toList_blockComment, List.append_assoc, List.append_assoc] at hbody
    rwa [List.append_cancel_right hbody]
  · exact fun h => ⟨_, toList_blockComment indent text, h⟩

/-! ## the comments of a class -/

/-- A stretch of the source of a class. -/
inductive Fragment where
  | code (source : String)
  | block (source : String)

def Fragment.source : Fragment → String
  | .code source | .block source => source

@[simp] theorem Fragment.source_code (source : String) : (code source).source = source := rfl

@[simp] theorem Fragment.source_block (source : String) : (block source).source = source := rfl

/-- The block comment of a method, if it has one, and its code. -/
def Method.fragments (m : Method) : List Fragment :=
  (if m.comment = "" then [] else [.block (blockComment "  " m.comment)]) ++
    [.code { m with comment := "" }.source]

def Member.fragments : Member → List Fragment
  | .method m => m.fragments
  | .field modifiers type name => [.code (Member.field modifiers type name).source]

/-- The source of a class below its line comment. -/
def CompilationUnit.fragments (u : CompilationUnit) : List Fragment :=
  [.code ("package " ++ u.package ++ ";\n\n"), .block (blockComment "" u.comment),
    .code ("public class " ++ u.name ++ " \x7b\n")] ++
  u.members.flatMap (fun m => .code "\n" :: m.fragments) ++ [.code "\x7d\n"]

/-- The fragments of a method put together are its text. -/
theorem join_fragments_method (m : Method) :
    String.join (m.fragments.map Fragment.source) = m.source := by
  by_cases h : m.comment = "" <;>
    simp [Method.fragments, Method.source, h, String.append_assoc]

/-- A member is a method or a field, and the same holds of either. -/
theorem join_fragments_member (m : Member) :
    String.join (m.fragments.map Fragment.source) = m.source := by
  cases m with
  | method m => exact join_fragments_method m
  | field modifiers type name => simp [Member.fragments]

/-- The members follow one another, each behind a blank line. -/
theorem join_fragments_members (ms : List Member) :
    String.join ((ms.flatMap fun m => .code "\n" :: m.fragments).map Fragment.source) =
      String.join (ms.map fun m => "\n" ++ m.source) := by
  induction ms with
  | nil => rfl
  | cons m ms ih =>
      rw [List.flatMap_cons, List.map_append, String.join_append, ih, List.map_cons,
        String.join_cons, join_fragments_member, List.map_cons, String.join_cons,
        Fragment.source_code]

/-- **The source of a class** is a line comment, and code and block comments in
turn below it. -/
theorem join_fragments (u : CompilationUnit) :
    "// " ++ u.origin ++ "\n" ++ String.join (u.fragments.map Fragment.source) = u.source := by
  rw [CompilationUnit.fragments, List.map_append, List.map_append, String.join_append,
    String.join_append, join_fragments_members]
  delta CompilationUnit.source
  simp only [List.map_cons, List.map_nil, Fragment.source_code, Fragment.source_block,
    String.join_cons, String.join_nil, String.append_empty, String.append_assoc]

/-- The characters that end a line of Java. -/
def isLineEnd (c : Char) : Bool := c = '\n' || c = '\r'

/-- No line end is found where a search for one fails. -/
theorem isLineEnd_of_any {cs : List Char} (h : cs.any isLineEnd = false) :
    ∀ c ∈ cs, isLineEnd c = false := by
  simpa using h

/-- The comments of a class end where they should: the line comment at the top with
its line, the block comments at their ends, and a backslash is in none of them. -/
structure CompilationUnit.CommentsClosed (u : CompilationUnit) : Prop where
  line : u.source.toList.takeWhile (fun c => !isLineEnd c) = ("// " ++ u.origin).toList
  backslash : '\\' ∉ u.origin.toList
  blocks : ∀ s, .block s ∈ u.fragments → IsClosed s

/-- A scan stops at the first character refused, so it takes a prefix when all of that is
accepted. -/
theorem takeWhile_eq_iff (p : Char → Bool) {xs ys : List Char} {c : Char} (hc : p c = false) :
    (xs ++ c :: ys).takeWhile p = xs ↔ ∀ x ∈ xs, p x = true := by
  induction xs with
  | nil => simp [hc]
  | cons x xs ih =>
      rw [List.cons_append, List.takeWhile_cons, List.forall_mem_cons]
      cases hx : p x <;> simp [ih]

/-- A method has a comment block just when it has a comment. -/
theorem block_mem_fragments_method {m : Method} {s : String} :
    .block s ∈ m.fragments ↔ m.comment ≠ "" ∧ s = blockComment "  " m.comment := by
  rw [Method.fragments]
  split <;> simp_all

/-- The comment blocks of a unit are those of its head and of its methods. -/
theorem block_mem_fragments {u : CompilationUnit} {s : String} :
    .block s ∈ u.fragments ↔ s = blockComment "" u.comment ∨
      ∃ m ∈ u.methods, m.comment ≠ "" ∧ s = blockComment "  " m.comment := by
  have hmember (m : Member) : .block s ∈ m.fragments ↔
      ∃ m' ∈ methodOf? m, m'.comment ≠ "" ∧ s = blockComment "  " m'.comment := by
    cases m with
    | method m => simp [Member.fragments, methodOf?, block_mem_fragments_method]
    | field modifiers type name => simp [Member.fragments, methodOf?]
  simp only [CompilationUnit.fragments, methods_eq_filterMap, List.mem_append, List.mem_cons,
    List.mem_flatMap, List.mem_filterMap, hmember, reduceCtorEq, Fragment.block.injEq, false_or,
    or_false, List.not_mem_nil]
  refine or_congr_right ⟨?_, ?_⟩
  · rintro ⟨m, hm, m', hm', h⟩
    exact ⟨m', ⟨m, hm, hm'⟩, h⟩
  · rintro ⟨m', ⟨m, hm, hm'⟩, h⟩
    exact ⟨m, hm, m', hm', h⟩

/-- The line comment ends with its line exactly if its text has no line end. -/
theorem takeWhile_source_iff (u : CompilationUnit) :
    u.source.toList.takeWhile (fun c => !isLineEnd c) = ("// " ++ u.origin).toList ↔
      ∀ c ∈ u.origin.toList, isLineEnd c = false := by
  have hsource : u.source.toList = ("// " ++ u.origin).toList ++
      '\n' :: (String.join (u.fragments.map Fragment.source)).toList := by
    simp [← join_fragments u]
  have hslashes : ∀ c ∈ "// ".toList, isLineEnd c = false := isLineEnd_of_any (by decide)
  rw [hsource, takeWhile_eq_iff _ rfl, String.toList_append, List.forall_mem_append]
  simp only [Bool.not_eq_true']
  exact and_iff_right hslashes

/-- **The comments of a class are closed exactly if their texts are fit for them**. -/
theorem commentsClosed_iff_texts (u : CompilationUnit) :
    u.CommentsClosed ↔
      (∀ c ∈ u.origin.toList, isLineEnd c = false) ∧ '\\' ∉ u.origin.toList ∧
        ∀ text ∈ u.comment :: u.methods.map Method.comment, FitsComment text.toList := by
  have hclass : IsClosed (blockComment "" u.comment) ↔ FitsComment u.comment.toList :=
    isClosed_blockComment (by simp) _
  have hmethod (m : Method) :
      IsClosed (blockComment "  " m.comment) ↔ FitsComment m.comment.toList :=
    isClosed_blockComment (by simp) _
  rw [← takeWhile_source_iff]
  constructor
  · rintro ⟨hline, hbackslash, hblocks⟩
    refine ⟨hline, hbackslash, List.forall_mem_cons.mpr ⟨?_, List.forall_mem_map.mpr ?_⟩⟩
    · exact hclass.mp (hblocks _ (block_mem_fragments.mpr (.inl rfl)))
    · intro m hm
      by_cases hempty : m.comment = ""
      · rw [hempty]
        exact fitsComment_of_not_mem (by decide)
      · exact (hmethod m).mp (hblocks _ (block_mem_fragments.mpr (.inr ⟨m, hm, hempty, rfl⟩)))
  · rintro ⟨hline, hbackslash, htexts⟩
    rw [List.forall_mem_cons, List.forall_mem_map] at htexts
    refine ⟨hline, hbackslash, fun s hs => ?_⟩
    rcases block_mem_fragments.mp hs with rfl | ⟨m, hm, _, rfl⟩
    · exact hclass.mpr htexts.1
    · exact (hmethod m).mpr (htexts.2 m hm)

/-! ## the names in them -/

/-- The names in the comments of the class of a wrapper fit into them: the foreign
name into the line comment as well. -/
structure NamesFit (w : Wrapper) : Prop where
  line : ∀ c ∈ w.foreignName.toList, isLineEnd c = false
  foreignName : FitsComment w.foreignName.toList
  modulePath : w.kind = .classLevel → FitsComment w.modulePath.toList

/-- Of the class comment, only the names and paths written raw decide whether it fits. -/
theorem fitsComment_classComment {w : Wrapper}
    (hdoc : w.kind = .classLevel → FitsComment w.doc.toList) :
    FitsComment (classComment w).toList ↔
      FitsComment w.foreignName.toList ∧
        (w.kind = .classLevel → FitsComment w.modulePath.toList) := by
  cases hkind : w.kind with
  | libraryLevel =>
      have hstart : FitsComment "Wrapper for foreign module: ".toList :=
        fitsComment_of_not_mem (by decide)
      rw [classComment, hkind, String.toList_append, fitsComment_append_of_getLast (by decide)]
      simp only [hstart, true_and, reduceCtorEq, false_implies, and_true]
  | classLevel =>
      have hstart : FitsComment "Wrapper for foreign class: ".toList :=
        fitsComment_of_not_mem (by decide)
      have hmodule : FitsComment " (module: ".toList := fitsComment_of_not_mem (by decide)
      have hend : FitsComment ")".toList := fitsComment_of_not_mem (by decide)
      have hlast : FitsComment (if w.doc = "" then "" else "\n\n" ++ w.doc).toList := by
        split
        · exact fitsComment_of_not_mem (by decide)
        · rw [String.toList_append, fitsComment_append_of_getLast (by decide)]
          exact ⟨fitsComment_of_not_mem (by decide), hdoc hkind⟩
      rw [classComment, hkind]
      simp only [String.toList_append]
      rw [fitsComment_append_of_head, fitsComment_append_of_head (by decide),
        fitsComment_append_of_getLast, fitsComment_append_of_head (by decide),
        fitsComment_append_of_getLast (by decide)]
      · simp only [hstart, hmodule, hend, hlast, true_and, and_true, forall_const]
      · rw [List.getLast?_append_of_ne_nil _ (by decide)]
        decide
      · split
        · decide
        · simp

variable {o : SynthesisOptions} {l : Library}

open Synthesis

/-- The text of a class passed through the sanitizer and always fits. -/
theorem fitsComment_doc_wrapper {w : Wrapper} (hw : w ∈ (synthesize o l).wrappers)
    (hkind : w.kind = .classLevel) : FitsComment w.doc.toList := by
  rcases mem_wrappers_synthesize.mp hw with rfl | ⟨c, _, rfl⟩
  · cases hkind
  · exact fitsComment_ofDoc _ _

/-- So did the text of every binding. -/
theorem fitsComment_doc_binding {w : Wrapper} (hw : w ∈ (synthesize o l).wrappers) {b : Binding}
    (hb : b ∈ w.bindings) : FitsComment b.doc.toList := by
  rw [bindings_of_mem_wrappers hw] at hb
  obtain ⟨c, _, rfl⟩ := List.mem_map.mp hb
  exact fitsComment_ofDoc _ _

/-- The comments of the helpers are fixed texts. -/
theorem fitsComment_comment_helpers {w : Wrapper} {m : Method} (hm : m ∈ helpers w) :
    FitsComment m.comment.toList := by
  have himports : FitsComment "Foreign statements run before every call.".toList :=
    fitsComment_of_not_mem (by decide)
  have hnone : FitsComment "".toList := fitsComment_of_not_mem (by decide)
  rw [helpers] at hm
  split at hm
  · rw [List.mem_singleton] at hm
    exact hm ▸ himports
  · simp only [List.mem_cons, List.not_mem_nil, or_false] at hm
    rcases hm with rfl | rfl | rfl
    · exact hnone
    · exact hnone
    · exact himports

/-- **The comments of a generated class end where they should exactly if its names
fit into them**; the docs always do. -/
theorem commentsClosed_iff (o : SynthesisOptions) (l : Library) (e : EmissionOptions)
    (package : String) {w : Wrapper} (hw : w ∈ (synthesize o l).wrappers) :
    (compilationUnit e package w).CommentsClosed ↔ NamesFit w := by
  have horigin : (compilationUnit e package w).origin.toList =
      "Generated by wrapweld for ".toList ++ w.foreignName.toList ++ " - do not edit".toList := by
    rw [← String.toList_append, ← String.toList_append]
    rfl
  have hline : (∀ c ∈ (compilationUnit e package w).origin.toList, isLineEnd c = false) ↔
      ∀ c ∈ w.foreignName.toList, isLineEnd c = false := by
    rw [horigin, List.forall_mem_append, List.forall_mem_append]
    exact ⟨fun h => h.1.2,
      fun h => ⟨⟨isLineEnd_of_any (by decide), h⟩, isLineEnd_of_any (by decide)⟩⟩
  have hbackslash : '\\' ∉ (compilationUnit e package w).origin.toList ↔
      '\\' ∉ w.foreignName.toList := by
    rw [horigin, List.mem_append, List.mem_append, not_or, not_or]
    exact ⟨fun h => h.1.2, fun h => ⟨⟨by decide, h⟩, by decide⟩⟩
  have hmethods : ∀ m ∈ (compilationUnit e package w).methods, FitsComment m.comment.toList := by
    intro m hm
    rw [methods_compilationUnit, List.mem_append] at hm
    rcases hm with hm | hm
    · exact fitsComment_comment_helpers hm
    · obtain ⟨b, hb, rfl⟩ := List.mem_map.mp hm
      exact fitsComment_doc_binding hw hb
  have hclass := fitsComment_classComment (fitsComment_doc_wrapper hw)
  rw [commentsClosed_iff_texts, List.forall_mem_cons, List.forall_mem_map, hline, hbackslash]
  constructor
  · rintro ⟨hline, -, htext, -⟩
    obtain ⟨hforeign, hmodule⟩ := hclass.mp htext
    exact ⟨hline, hforeign, hmodule⟩
  · rintro ⟨hline, hforeign, hmodule⟩
    exact ⟨hline, hforeign.2, hclass.mpr ⟨hforeign, hmodule⟩, hmethods⟩

/-- A class whose doc would end its comment if it were not prepared for it. -/
def documentedClass : ForeignClass := ⟨"C", "lib.c", some "ends */ here and \\u002a/ there", []⟩

def documentedLibrary : Library := ⟨"lib", [], [documentedClass]⟩

/-- A class whose text closes a comment is still rendered with every comment closed. -/
theorem commentsClosed_documentedClass :
    (classWrapper {} "lib" documentedClass).1 ∈ (synthesize {} documentedLibrary).wrappers ∧
      (compilationUnit {} "p" (classWrapper {} "lib" documentedClass).1).CommentsClosed := by
  have hwrapped : documentedClass ∈ wrappedClasses {} documentedLibrary := by
    have h : wrappedClasses {} documentedLibrary = [documentedClass] := by decide +kernel
    exact h ▸ List.mem_cons_self
  have hw : (classWrapper {} "lib" documentedClass).1 ∈
      (synthesize {} documentedLibrary).wrappers :=
    mem_wrappers_synthesize.mpr (.inr ⟨documentedClass, hwrapped, rfl⟩)
  have hname : FitsComment "C".toList := fitsComment_of_not_mem (by decide)
  have hmodule : FitsComment "lib.c".toList := fitsComment_of_not_mem (by decide)
  have hline : ∀ c ∈ "C".toList, isLineEnd c = false := isLineEnd_of_any (by decide)
  exact ⟨hw, (commentsClosed_iff {} documentedLibrary {} "p" hw).mpr
    ⟨hline, hname, fun _ => hmodule⟩⟩

/-- A document that names a library with a comment end in its name. -/
def unfitDocument : MetadataDocument := ⟨some "a*/b", none, [], []⟩

def unfitLibrary : Library := ⟨"a*/b", [], []⟩

/-- The library is accepted, and its name ends the comment of its class. -/
theorem not_commentsClosed_unfitLibrary :
    Library.ofDocument unfitDocument = .ok unfitLibrary ∧
      (libraryWrapper {} unfitLibrary).1 ∈ (synthesize {} unfitLibrary).wrappers ∧
      ¬(compilationUnit {} "p" (libraryWrapper {} unfitLibrary).1).CommentsClosed := by
  have haccepted : Library.ofDocument unfitDocument = .ok unfitLibrary := by decide +kernel
  have hw := mem_wrappers_synthesize.mpr (Or.inl (Eq.refl (libraryWrapper {} unfitLibrary).1))
  refine ⟨haccepted, hw, fun h => ?_⟩
  have htexts := (commentsClosed_iff_texts _).mp h
  have hfits := (List.forall_mem_cons.mp htexts.2.2).1
  have hcomment : "Wrapper for foreign module: a".toList ++ commentEnd ++ "b".toList =
      (compilationUnit {} "p" (libraryWrapper {} unfitLibrary).1).comment.toList := by
    decide +kernel
  exact hfits.1 ⟨_, _, hcomment⟩

end Java

end BindingSynthesis
