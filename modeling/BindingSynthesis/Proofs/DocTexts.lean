import BindingSynthesis.Proofs.JavaComments

/-!
# BindingSynthesis.Proofs.DocTexts

What a doc text becomes before it is written as a comment.

```
doc       first characters, and an ellipsis if there are more
plain     no carriage return
mid       &#92; for each backslash
result    *&#47; for each end of a comment
```

1. A text is its pieces between the occurrences of a part, and replacing the part puts
   them together with something else; one character or two different ones are replaced
   so (`replaced_char_iff`, `replaced_pair_iff`).
2. A text without the part is one piece, so a short doc text without anything to
   replace stays as it is (`ofDoc_eq_self`).
3. A block comment of the result has one end of a comment, in its last line
   (`occurrences_blockComment`).
-/

namespace BindingSynthesis

open Text

namespace CommentText

/-! ## replaced parts -/

/-- The new text has a substitute for each occurrence of a part in the old one, and
nothing else is different. -/
def Replaced (part substitute old new : List Char) : Prop :=
  ∃ pieces, (∀ piece ∈ pieces, ¬part <:+: piece) ∧
    old = part.intercalate pieces ∧ new = substitute.intercalate pieces

section

variable {part : List Char} (hpart : part ≠ [])
include hpart

/-- What occurs in a text has a first occurrence there. -/
theorem exists_first {cs : List Char} (h : part <:+: cs) :
    ∃ before after, cs = before ++ part ++ after ∧ ¬part <:+: before := by
  obtain ⟨before, after, rfl⟩ := h
  induction hlength : before.length using Nat.strong_induction_on generalizing before after with
  | h n ih =>
      by_cases hbefore : part <:+: before
      · obtain ⟨earlier, between, rfl⟩ := hbefore
        have hshorter : earlier.length < n := by
          have hpos := List.length_pos_iff.mpr hpart
          simp only [List.length_append] at hlength
          omega
        obtain ⟨first, rest, heq, hfirst⟩ :=
          ih earlier.length hshorter earlier (between ++ part ++ after) rfl
        exact ⟨first, rest, by simpa using heq, hfirst⟩
      · exact ⟨before, after, rfl, hbefore⟩

/-- Every text is cut at the occurrences of a part. -/
theorem exists_pieces (cs : List Char) :
    ∃ piece more, (∀ p ∈ piece :: more, ¬part <:+: p) ∧ cs = part.intercalate (piece :: more) := by
  induction hlength : cs.length using Nat.strong_induction_on generalizing cs with
  | h n ih =>
      by_cases hcs : part <:+: cs
      · obtain ⟨before, after, rfl, hbefore⟩ := exists_first hpart hcs
        have hshorter : after.length < n := by
          have hpos := List.length_pos_iff.mpr hpart
          simp only [List.length_append] at hlength
          omega
        obtain ⟨piece, more, hfree, rfl⟩ := ih after.length hshorter after rfl
        exact ⟨before, piece :: more, List.forall_mem_cons.mpr ⟨hbefore, hfree⟩,
          by rw [List.intercalate_cons_cons]⟩
      · exact ⟨cs, [], by simpa using hcs, by simp⟩

/-- **What replaces the occurrences of a part**: it leaves a text without the part as it
is, and replaces the part behind such a text. -/
theorem replaced_iff {substitute : List Char} {f : List Char → List Char}
    (hself : ∀ cs, ¬part <:+: cs → f cs = cs)
    (happend : ∀ cs rest, ¬part <:+: cs → f (cs ++ part ++ rest) = cs ++ substitute ++ f rest)
    {old new : List Char} : Replaced part substitute old new ↔ new = f old := by
  have hjoined (pieces : List (List Char)) (hfree : ∀ piece ∈ pieces, ¬part <:+: piece) :
      f (part.intercalate pieces) = substitute.intercalate pieces := by
    induction pieces with
    | nil => exact hself [] (by simpa using hpart)
    | cons piece more ih =>
        rw [List.forall_mem_cons] at hfree
        cases more with
        | nil => simpa using hself piece hfree.1
        | cons next more =>
            rw [List.intercalate_cons_cons, List.intercalate_cons_cons, happend _ _ hfree.1,
              ih hfree.2]
  constructor
  · rintro ⟨pieces, hfree, rfl, rfl⟩
    exact (hjoined pieces hfree).symm
  · rintro rfl
    obtain ⟨piece, more, hfree, rfl⟩ := exists_pieces hpart old
    exact ⟨piece :: more, hfree, rfl, hjoined _ hfree⟩

end

theorem singleton_infix_iff {c : Char} {cs : List Char} : [c] <:+: cs ↔ c ∈ cs := by
  constructor
  · exact fun h => h.subset List.mem_cons_self
  · intro h
    obtain ⟨before, after, rfl⟩ := List.append_of_mem h
    exact ⟨before, after, by simp⟩

theorem replaceChar_of_not_mem {c : Char} {substitute cs : List Char} (h : c ∉ cs) :
    replaceChar c substitute cs = cs := by
  induction cs with
  | nil => rfl
  | cons d cs ih =>
      rw [List.mem_cons, not_or] at h
      rw [replaceChar_cons, if_neg (Ne.symm h.1), ih h.2]
      rfl

/-- **Replacing a character** replaces each of its occurrences. -/
theorem replaced_char_iff {c : Char} {substitute old new : List Char} :
    Replaced [c] substitute old new ↔ new = replaceChar c substitute old := by
  refine replaced_iff (List.cons_ne_nil c []) (fun cs h => ?_) fun cs rest h => ?_
  · exact replaceChar_of_not_mem (mt singleton_infix_iff.mpr h)
  · rw [replaceChar_append, replaceChar_append,
      replaceChar_of_not_mem (mt singleton_infix_iff.mpr h)]
    simp

theorem replacePair_of_not_infix {a b : Char} {substitute cs : List Char} (h : ¬[a, b] <:+: cs) :
    replacePair a b substitute cs = cs := by
  fun_induction replacePair a b substitute cs with
  | case1 | case2 => rfl
  | case3 c d rest heq ih => exact absurd (heq.1 ▸ heq.2 ▸ ⟨[], rest, rfl⟩) h
  | case4 c d rest hne ih =>
      rw [pair_infix_cons, not_or] at h
      rw [ih h.2]

theorem replacePair_append {a b : Char} (hab : a ≠ b) {substitute cs : List Char}
    (h : ¬[a, b] <:+: cs) (rest : List Char) :
    replacePair a b substitute (cs ++ [a, b] ++ rest) =
      cs ++ substitute ++ replacePair a b substitute rest := by
  induction cs with
  | nil =>
      change replacePair a b substitute (a :: b :: rest) = _
      rw [replacePair, if_pos ⟨rfl, rfl⟩, List.nil_append]
  | cons c cs ih =>
      rw [pair_infix_cons, not_or] at h
      -- The next character of the whole text decides whether the pair starts with `c`.
      cases cs with
      | nil =>
          change replacePair a b substitute (c :: a :: b :: rest) = _
          rw [replacePair, if_neg fun heq => hab heq.2]
          exact congrArg (c :: ·) (ih h.2)
      | cons d cs =>
          change replacePair a b substitute (c :: d :: (cs ++ [a, b] ++ rest)) = _
          rw [replacePair, if_neg fun heq => h.1 ⟨heq.1, congrArg some heq.2⟩]
          exact congrArg (c :: ·) (ih h.2)

/-- **Replacing two characters in a row** replaces each of their occurrences, if they are
different. -/
theorem replaced_pair_iff {a b : Char} (hab : a ≠ b) {substitute old new : List Char} :
    Replaced [a, b] substitute old new ↔ new = replacePair a b substitute old :=
  replaced_iff (List.cons_ne_nil a [b]) (fun _ h => replacePair_of_not_infix h)
    fun _ rest h => replacePair_append hab h rest

/-! ## prepared texts -/

/-- At most `limit` characters, and the ellipsis if something was cut. -/
theorem bounded_eq (limit : Nat) (cs : List Char) :
    bounded limit cs = cs.take limit ++ if cs.length ≤ limit then [] else ellipsis := by
  rw [bounded]
  split
  · next h => rw [if_neg (by omega)]
  · next h => rw [if_pos (by omega), List.take_of_length_le (by omega), List.append_nil]

theorem mem_of_mem_replaceChar {c d : Char} {substitute cs : List Char}
    (h : d ∈ replaceChar c substitute cs) : d ∈ substitute ∨ d ∈ cs := by
  obtain ⟨e, he, hd⟩ := List.mem_flatMap.mp h
  split at hd
  · exact .inl hd
  · exact .inr (List.mem_singleton.mp hd ▸ he)

/-- **A text is escaped** in three steps. -/
theorem eq_escaped_iff {cs text : List Char} : text = escaped cs ↔
    ∃ plain mid, Replaced "\r".toList [] cs plain ∧
      Replaced "\\".toList "&#92;".toList plain mid ∧
      Replaced "*/".toList "*&#47;".toList mid text := by
  have hpair : '*' ≠ '/' := by decide
  have hreturn : "\r".toList = ['\r'] := rfl
  have hbackslash : "\\".toList = ['\\'] := rfl
  have hend : "*/".toList = ['*', '/'] := rfl
  rw [hreturn, hbackslash, hend]
  simp only [replaced_char_iff, replaced_pair_iff hpair]
  constructor
  · rintro rfl
    exact ⟨_, _, rfl, rfl, rfl⟩
  · rintro ⟨-, -, rfl, rfl, rfl⟩
    rfl

theorem return_not_mem_ofDoc (limit : Nat) (doc : Option String) :
    '\r' ∉ (ofDoc limit doc).toList := by
  cases doc with
  | none => simp
  | some doc =>
      rw [ofDoc, String.toList_ofList, escaped]
      intro h
      obtain h | h := mem_of_mem_replacePair h
      · revert h; decide
      obtain h | h := mem_of_mem_replaceChar h
      · revert h; decide
      · exact not_mem_replaceChar List.not_mem_nil h

/-- **A short text with nothing to replace stays as it is**. -/
theorem ofDoc_eq_self {limit : Nat} {doc : String} (hlength : doc.length ≤ limit)
    (hfits : FitsComment doc.toList) (hreturn : '\r' ∉ doc.toList) :
    ofDoc limit (some doc) = doc := by
  rw [ofDoc, bounded_of_length_le (String.length_toList ▸ hlength), escaped,
    replaceChar_of_not_mem hreturn, replaceChar_of_not_mem hfits.2,
    replacePair_of_not_infix hfits.1, String.ofList_toList]

end CommentText

/-! ## comments -/

namespace Java

open CommentText

/-- How often a part occurs in a text: at how many places its rest starts with it. -/
def occurrences (part cs : List Char) : Nat := cs.tails.countP part.isPrefixOf

theorem occurrences_cons (part : List Char) (c : Char) (cs : List Char) :
    occurrences part (c :: cs) =
      occurrences part cs + if part.isPrefixOf (c :: cs) then 1 else 0 := by
  simp [occurrences, List.countP_cons]

/-- The end of a comment occurs once where it ends a text without one. -/
theorem occurrences_commentEnd {body : List Char} (h : ¬commentEnd <:+: body) :
    occurrences commentEnd (body ++ commentEnd ++ ['\n']) = 1 := by
  induction body with
  | nil => rfl
  | cons c body ih =>
      rw [commentEnd, pair_infix_cons, not_or] at h
      have hstart : commentEnd.isPrefixOf (c :: (body ++ commentEnd ++ ['\n'])) ≠ true := by
        rw [ne_eq, List.isPrefixOf_iff_prefix, commentEnd, List.cons_prefix_cons]
        rintro ⟨rfl, hslash⟩
        cases body with
        | nil => exact absurd hslash (by decide)
        | cons d body => exact h.1 ⟨rfl, congrArg some (List.cons_prefix_cons.mp hslash).1.symm⟩
      rw [List.cons_append, List.cons_append, occurrences_cons, ih h.2, if_neg hstart]

/-- The lines of a block comment above its last one. -/
theorem exists_above (indent text : List Char) :
    ∃ above, commentBody indent text = above ++ ['\n'] ++ (indent ++ [' ']) := by
  obtain hlines | ⟨init, last, hlines⟩ := List.eq_nil_or_concat (lines text)
  · exact ⟨indent ++ ['/', '*', '*'], by simp [commentBody, hlines]⟩
  · obtain ⟨line, hlast⟩ : ∃ line, commentLine indent last = line ++ ['\n'] := by
      rw [commentLine]
      split
      · exact ⟨indent ++ [' ', '*'], by simp⟩
      · exact ⟨indent ++ [' ', '*', ' '] ++ last, rfl⟩
    refine ⟨indent ++ ['/', '*', '*', '\n'] ++ init.flatMap (commentLine indent) ++ line, ?_⟩
    simp [commentBody, hlines, hlast]

/-- **A block comment of a fit text ends once**, in its last line. -/
theorem occurrences_blockComment {indent text : String} (hindent : ∀ c ∈ indent.toList, c = ' ')
    (h : FitsComment text.toList) :
    occurrences commentEnd (blockComment indent text).toList = 1 ∧
      ∃ above, blockComment indent text = above ++ "\n" ++ (indent ++ " */") ++ "\n" := by
  constructor
  · rw [toList_blockComment]
    exact occurrences_commentEnd (mt (commentEnd_infix_commentBody hindent _).mp h.1)
  · obtain ⟨above, habove⟩ := exists_above indent.toList text.toList
    refine ⟨String.ofList above, String.toList_injective ?_⟩
    rw [toList_blockComment, habove]
    simp [commentEnd]

/-- **A doc text is inert in a comment**: it has no backslash, no carriage return and no
end of a comment, so that a block comment of it ends once, in its last line.  It is the
first characters of the doc, with an ellipsis exactly if there are more, where carriage
returns are dropped and then backslashes and then ends of comments are replaced, each
of them and nothing else.  A short doc without any of these stays as it is. -/
theorem ofDoc_inert (limit : Nat) (doc : String) :
    ('\\' ∉ (ofDoc limit (some doc)).toList ∧ '\r' ∉ (ofDoc limit (some doc)).toList ∧
      ¬commentEnd <:+: (ofDoc limit (some doc)).toList) ∧
    (∀ indent : String, (∀ c ∈ indent.toList, c = ' ') →
      occurrences commentEnd (blockComment indent (ofDoc limit (some doc))).toList = 1 ∧
        ∃ above, blockComment indent (ofDoc limit (some doc)) =
          above ++ "\n" ++ (indent ++ " */") ++ "\n") ∧
    (∀ text, text = (ofDoc limit (some doc)).toList ↔ ∃ plain mid,
      Replaced "\r".toList [] (doc.toList.take limit ++
        if doc.length ≤ limit then [] else "...".toList) plain ∧
      Replaced "\\".toList "&#92;".toList plain mid ∧
      Replaced "*/".toList "*&#47;".toList mid text) ∧
    (doc.length ≤ limit → '\\' ∉ doc.toList → '\r' ∉ doc.toList → ¬commentEnd <:+: doc.toList →
      ofDoc limit (some doc) = doc) := by
  have hfits := fitsComment_ofDoc limit (some doc)
  refine ⟨⟨hfits.2, return_not_mem_ofDoc limit _, hfits.1⟩, fun indent hindent => ?_,
    fun text => ?_, fun hlength hbackslash hreturn hend => ?_⟩
  · exact occurrences_blockComment hindent hfits
  · have hbounded : doc.toList.take limit ++ (if doc.length ≤ limit then [] else "...".toList) =
        bounded limit doc.toList := by
      rw [bounded_eq, String.length_toList]
      rfl
    rw [hbounded, ofDoc, String.toList_ofList]
    exact eq_escaped_iff
  · exact ofDoc_eq_self hlength ⟨hend, hbackslash⟩ hreturn

/-- A doc whose carriage return parts the end of a comment, and a short one. -/
theorem ofDoc_inert_partedEnd :
    ofDoc 12 (some "a*\r/ \\u002a/ z") = "a*&#47; &#92;u002a/..." ∧
      (∀ c ∈ "  ".toList, c = ' ') ∧
      occurrences commentEnd (blockComment "  " (ofDoc 12 (some "a*\r/ \\u002a/ z"))).toList = 1 ∧
      "* / short".length ≤ 12 ∧ '\\' ∉ "* / short".toList ∧ '\r' ∉ "* / short".toList ∧
      ¬commentEnd <:+: "* / short".toList ∧ ofDoc 12 (some "* / short") = "* / short" := by
  have hindent : ∀ c ∈ "  ".toList, c = ' ' := by simp
  have hlength : "* / short".length ≤ 12 := by decide
  have hbackslash : '\\' ∉ "* / short".toList := by decide
  have hreturn : '\r' ∉ "* / short".toList := by decide
  have hend : ¬commentEnd <:+: "* / short".toList := mt occursIn_iff.mpr (by decide)
  obtain ⟨-, hblock, -, -⟩ := ofDoc_inert 12 "a*\r/ \\u002a/ z"
  obtain ⟨-, -, -, hself⟩ := ofDoc_inert 12 "* / short"
  exact ⟨by decide +kernel, hindent, (hblock "  " hindent).1, hlength, hbackslash, hreturn, hend,
    hself hlength hbackslash hreturn hend⟩

end Java

end BindingSynthesis
