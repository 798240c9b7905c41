/-!
# BindingSynthesis.Java.Literal

String literals of Java source.

The quote, the backslash, the line feed, the carriage return and the tab are
written as escapes, and every other character stands for itself.  No backslash
of the text is left alone, so none can start a Unicode escape.
-/

namespace BindingSynthesis.Java

/-- How a character is written inside a literal. -/
def escapeChar (c : Char) : List Char :=
  if c = '"' then ['\\', '"']
  else if c = '\\' then ['\\', '\\']
  else if c = '\n' then ['\\', 'n']
  else if c = '\r' then ['\\', 'r']
  else if c = '\t' then ['\\', 't']
  else [c]

/-- The characters of a literal between its quotes. -/
def escape (cs : List Char) : List Char := cs.flatMap escapeChar

/-- The literal of a text. -/
def literal (s : String) : String := String.ofList ('"' :: escape s.toList ++ ['"'])

@[simp] theorem escape_nil : escape [] = [] := rfl

@[simp] theorem escape_cons (c : Char) (cs : List Char) :
    escape (c :: cs) = escapeChar c ++ escape cs := by simp [escape]

theorem escape_append (xs ys : List Char) : escape (xs ++ ys) = escape xs ++ escape ys := by
  simp [escape]

@[simp] theorem toList_literal (s : String) :
    (literal s).toList = '"' :: escape s.toList ++ ['"'] := by simp [literal]

end BindingSynthesis.Java
