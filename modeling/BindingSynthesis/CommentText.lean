import BindingSynthesis.Text.Replace

/-!
# BindingSynthesis.CommentText

Doc texts that are safe inside a block comment of the host language.

1. A text of more than a given number of characters is cut there and marked
   with an ellipsis.
2. Carriage returns are dropped.
3. A backslash becomes `&#92;`, so that no `\u` escape reaches the host source,
   and the end of a block comment becomes `*&#47;`.
-/

namespace BindingSynthesis.CommentText

/-- What marks a text that was cut. -/
def ellipsis : List Char := ['.', '.', '.']

/-- At most `limit` characters, and the ellipsis if there were more. -/
def bounded (limit : Nat) (cs : List Char) : List Char :=
  if limit < cs.length then cs.take limit ++ ellipsis else cs

/-- The text without anything that the host language would read in a comment. -/
def escaped (cs : List Char) : List Char :=
  Text.replacePair '*' '/' ['*', '&', '#', '4', '7', ';']
    (Text.replaceChar '\\' ['&', '#', '9', '2', ';'] (Text.replaceChar '\r' [] cs))

/-- The comment text of a doc text; an absent one is empty. -/
def ofDoc (limit : Nat) : Option String → String
  | none => ""
  | some doc => String.ofList (escaped (bounded limit doc.toList))

@[simp] theorem ofDoc_none (limit : Nat) : ofDoc limit none = "" := rfl

theorem bounded_of_length_le {limit : Nat} {cs : List Char} (h : cs.length ≤ limit) :
    bounded limit cs = cs := by
  rw [bounded, if_neg (by omega)]

end BindingSynthesis.CommentText
