/-!
# BindingSynthesis.Text.Replace

Searching and replacing in texts.  Occurrences of a pattern are found from
left to right, and a replacement is never searched again.
-/

namespace BindingSynthesis.Text

/-- `part` occurs in the text; the empty text occurs in every text. -/
def occursIn (part : List Char) : List Char → Bool
  | [] => part.isEmpty
  | c :: rest => part.isPrefixOf (c :: rest) || occursIn part rest

/-- `part` occurs in `s`. -/
def contains (s part : String) : Bool := occursIn part.toList s.toList

/-- Every occurrence of one character replaced by a text. -/
def replaceChar (c : Char) (substitute : List Char) (cs : List Char) : List Char :=
  cs.flatMap fun d => if d = c then substitute else [d]

/-- Every occurrence of the two characters `a`, `b` in this order replaced by a
text. -/
def replacePair (a b : Char) (substitute : List Char) : List Char → List Char
  | [] => []
  | [c] => [c]
  | c :: d :: rest =>
    if c = a ∧ d = b then substitute ++ replacePair a b substitute rest
    else c :: replacePair a b substitute (d :: rest)

/-- A part occurs exactly if the text has it in one piece. -/
theorem occursIn_iff {part cs : List Char} : occursIn part cs = true ↔ part <:+: cs := by
  induction cs with
  | nil => rw [occursIn, List.isEmpty_iff, List.infix_nil]
  | cons c rest ih =>
    rw [occursIn, Bool.or_eq_true, List.isPrefixOf_iff_prefix, ih, List.infix_cons_iff]

@[simp] theorem replaceChar_nil (c : Char) (substitute : List Char) : replaceChar c substitute [] = [] := rfl

@[simp] theorem replaceChar_cons (c : Char) (substitute : List Char) (d : Char) (rest : List Char) :
    replaceChar c substitute (d :: rest) = (if d = c then substitute else [d]) ++ replaceChar c substitute rest := by
  simp [replaceChar]

theorem replaceChar_append (c : Char) (substitute xs ys : List Char) :
    replaceChar c substitute (xs ++ ys) = replaceChar c substitute xs ++ replaceChar c substitute ys := by
  simp [replaceChar]

end BindingSynthesis.Text
