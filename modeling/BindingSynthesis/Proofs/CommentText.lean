import BindingSynthesis.CommentText
import BindingSynthesis.Text.Lines

/-!
# BindingSynthesis.Proofs.CommentText

What can stand in a comment without ending it.

1. Two characters in a row occur in a text put together from two if they occur
   in one of them or meet at the seam (`pair_infix_append`).
2. Cutting a text into lines neither loses nor makes a comment end
   (`commentEnd_infix_lines`).
3. A doc text prepared for a comment fits into one (`fitsComment_ofDoc`).
-/

namespace BindingSynthesis

open Text

namespace CommentText

/-! ## two characters in a row -/

/-- A pair of characters is in a text at its start or further on. -/
theorem pair_infix_cons {a b c : Char} {cs : List Char} :
    [a, b] <:+: c :: cs ↔ (c = a ∧ cs.head? = some b) ∨ [a, b] <:+: cs := by
  rw [List.infix_cons_iff, List.cons_prefix_cons]
  cases cs with
  | nil => simp
  | cons d cs => simp [List.cons_prefix_cons, eq_comm]

/-- A pair is on one side of a seam or straddles it. -/
theorem pair_infix_append {a b : Char} {xs ys : List Char} :
    [a, b] <:+: xs ++ ys ↔
      [a, b] <:+: xs ∨ [a, b] <:+: ys ∨ (xs.getLast? = some a ∧ ys.head? = some b) := by
  induction xs with
  | nil => simp
  | cons c xs ih =>
      rw [List.cons_append, pair_infix_cons, pair_infix_cons, ih]
      cases xs with
      | nil => simp [or_comm]
      | cons d xs =>
          rw [List.getLast?_cons_cons]
          simp [or_assoc]

/-- Nothing meets at a seam behind which `b` does not stand. -/
theorem pair_infix_append_of_head {a b : Char} {xs ys : List Char} (h : ys.head? ≠ some b) :
    [a, b] <:+: xs ++ ys ↔ [a, b] <:+: xs ∨ [a, b] <:+: ys := by
  simp [pair_infix_append, h]

/-- Nothing meets at a seam before which `a` does not stand. -/
theorem pair_infix_append_of_getLast {a b : Char} {xs ys : List Char} (h : xs.getLast? ≠ some a) :
    [a, b] <:+: xs ++ ys ↔ [a, b] <:+: xs ∨ [a, b] <:+: ys := by
  simp [pair_infix_append, h]

/-- Pieces that never end in the first character make no pair at their seams. -/
theorem pair_infix_flatMap {α : Type} {a b : Char} {f : α → List Char} (xs : List α)
    (h : ∀ x, (f x).getLast? ≠ some a) :
    [a, b] <:+: xs.flatMap f ↔ ∃ x ∈ xs, [a, b] <:+: f x := by
  induction xs with
  | nil => simp
  | cons x xs ih =>
      rw [List.flatMap_cons, pair_infix_append_of_getLast (h x), ih]
      simp only [List.mem_cons, exists_eq_or_imp]

/-! ## replaced texts -/

/-- A replaced character is gone, unless its substitute brings it back. -/
theorem not_mem_replaceChar {c : Char} {substitute cs : List Char} (h : c ∉ substitute) :
    c ∉ replaceChar c substitute cs := by
  induction cs with
  | nil => exact List.not_mem_nil
  | cons d cs ih =>
      rw [replaceChar_cons, List.mem_append, not_or]
      refine ⟨?_, ih⟩
      split
      · exact h
      · next hd => simpa using Ne.symm hd

/-- Replacing a pair brings in no character but those of the substitute. -/
theorem mem_of_mem_replacePair {a b c : Char} {substitute cs : List Char}
    (h : c ∈ replacePair a b substitute cs) : c ∈ substitute ∨ c ∈ cs := by
  fun_induction replacePair a b substitute cs with
  | case1 => cases h
  | case2 d => exact .inr h
  | case3 d e rest heq ih =>
      rw [List.mem_append] at h
      exact h.elim .inl fun h => (ih h).imp_right fun h => by simp [h]
  | case4 d e rest hne ih =>
      rw [List.mem_cons] at h
      exact h.elim (fun h => .inr (by simp [h])) fun h =>
        (ih h).imp_right fun h => List.mem_cons_of_mem _ h

/-- A substitute that starts with the first character of the pair leaves the head of a
text as it was. -/
theorem head?_replacePair {a b : Char} {substitute : List Char} (c : Char) (rest : List Char)
    (h : substitute.head? = some a) :
    (replacePair a b substitute (c :: rest)).head? = some c := by
  cases rest with
  | nil => rfl
  | cons d rest =>
      rw [replacePair]
      split
      · next heq => rw [List.head?_append, h, heq.1, Option.some_or]
      · rfl

/-- A pair that is replaced throughout is gone, if the substitute neither has it
nor ends as it starts. -/
theorem pair_not_infix_replacePair {a b : Char} {substitute cs : List Char}
    (h : ¬[a, b] <:+: substitute) (hfirst : substitute.head? = some a)
    (hlast : substitute.getLast? ≠ some a) : ¬[a, b] <:+: replacePair a b substitute cs := by
  fun_induction replacePair a b substitute cs with
  | case1 => simp
  | case2 d => simp [pair_infix_cons]
  | case3 d e rest heq ih =>
      rw [pair_infix_append_of_getLast hlast, not_or]
      exact ⟨h, ih⟩
  | case4 d e rest hne ih =>
      rw [pair_infix_cons, head?_replacePair e rest hfirst, Option.some.injEq, not_or]
      exact ⟨hne, ih⟩

/-! ## comments -/

/-- What ends a block comment. -/
def commentEnd : List Char := ['*', '/']

/-- Without a slash no comment ends. -/
theorem commentEnd_absent {cs : List Char} (h : '/' ∉ cs) : ¬commentEnd <:+: cs :=
  fun hpart => h (hpart.subset (by decide))

/-- A text that can stand in a block comment: it neither ends the comment nor has a
backslash, with which Java would write any character. -/
def FitsComment (cs : List Char) : Prop := ¬commentEnd <:+: cs ∧ '\\' ∉ cs

/-- A text without slashes and backslashes fits in a comment as it stands. -/
theorem fitsComment_of_not_mem {cs : List Char} (h : '/' ∉ cs ∧ '\\' ∉ cs) : FitsComment cs :=
  ⟨commentEnd_absent h.1, h.2⟩

/-- Two texts fit together when each fits, provided that the second one starts with no
slash. -/
theorem fitsComment_append_of_head {xs ys : List Char} (h : ys.head? ≠ some '/') :
    FitsComment (xs ++ ys) ↔ FitsComment xs ∧ FitsComment ys := by
  simp only [FitsComment, commentEnd, pair_infix_append_of_head h, List.mem_append, not_or]
  exact and_and_and_comm

/-- It is enough as well that the first one ends with no star. -/
theorem fitsComment_append_of_getLast {xs ys : List Char} (h : xs.getLast? ≠ some '*') :
    FitsComment (xs ++ ys) ↔ FitsComment xs ∧ FitsComment ys := by
  simp only [FitsComment, commentEnd, pair_infix_append_of_getLast h, List.mem_append, not_or]
  exact and_and_and_comm

/-- **A doc text fits into a comment** once it is prepared for one. -/
theorem fitsComment_ofDoc (limit : Nat) (doc : Option String) :
    FitsComment (ofDoc limit doc).toList := by
  cases doc with
  | none =>
      exact fitsComment_of_not_mem (by simp)
  | some doc =>
      rw [ofDoc, String.toList_ofList, escaped]
      constructor
      · exact pair_not_infix_replacePair (by decide) rfl (by decide)
      · exact fun h => (mem_of_mem_replacePair h).elim (by decide) (not_mem_replaceChar (by decide))

/-! ## lines -/

/-- Only the empty text has no lines. -/
theorem lines_eq_nil_iff {cs : List Char} : lines cs = [] ↔ cs = [] := by
  fun_cases lines cs <;> simp_all

/-- The first line starts as the text does, unless the text starts with a line end. -/
theorem head?_of_lines_eq_cons {cs line : List Char} {more : List (List Char)} {c : Char}
    (h : lines cs = line :: more) (hc : c ≠ '\n' ∧ c ≠ '\r') :
    line.head? = some c ↔ cs.head? = some c := by
  fun_cases lines cs with
  | case1 => cases h
  | case2 rest | case3 rest =>
      rw [lines] at h
      cases h
      simp [Ne.symm hc.1, Ne.symm hc.2]
  | case4 d rest _ _ hrest | case5 d rest _ _ _ _ hrest =>
      rw [lines, hrest] at h
      · cases h
        rfl
      all_goals assumption

/-- **Cutting a text into lines keeps what is no line end**. -/
theorem mem_lines {c : Char} (hc : c ≠ '\n' ∧ c ≠ '\r') (cs : List Char) :
    (∃ line ∈ lines cs, c ∈ line) ↔ c ∈ cs := by
  fun_induction lines cs with
  | case1 => simp
  | case2 rest ih => simp [ih, hc]
  | case3 rest ih => simp [ih, hc]
  | case4 d rest _ _ hrest => simp [lines_eq_nil_iff.mp hrest]
  | case5 d rest line more _ _ hrest ih =>
      rw [List.mem_cons, ← ih, hrest]
      simp [or_assoc]

/-- **Cutting a text into lines keeps its comment ends**, and makes none. -/
theorem commentEnd_infix_lines (cs : List Char) :
    (∃ line ∈ lines cs, commentEnd <:+: line) ↔ commentEnd <:+: cs := by
  fun_induction lines cs with
  | case1 => simp [commentEnd]
  | case2 rest ih =>
      simp only [commentEnd, List.mem_cons, exists_eq_or_imp] at ih ⊢
      simp [ih, pair_infix_cons]
  | case3 rest ih =>
      simp only [commentEnd, List.mem_cons, exists_eq_or_imp] at ih ⊢
      simp [ih, pair_infix_cons]
  | case4 d rest _ _ hrest => simp [lines_eq_nil_iff.mp hrest]
  | case5 d rest line more _ _ hrest ih =>
      have hhead := head?_of_lines_eq_cons (c := '/') hrest (by decide)
      rw [hrest] at ih
      simp only [commentEnd, List.mem_cons, exists_eq_or_imp] at ih ⊢
      rw [pair_infix_cons, pair_infix_cons, ← ih, hhead, or_assoc]

end CommentText

end BindingSynthesis
