/-!
# BindingSynthesis.Text.Lines

Cutting a text into pieces.

1. `lines` ends a line at a line feed, together with one carriage return right
   before it; a text that ends with a line feed has no empty last line.
2. `segments` cuts at every occurrence of a separator, so it always gives at
   least one piece; `joined` puts pieces together again.
-/

namespace BindingSynthesis.Text

/-! ## Lines -/

/-- The lines of a text. -/
def lines : List Char → List (List Char)
  | [] => []
  | '\n' :: rest => [] :: lines rest
  | '\r' :: '\n' :: rest => [] :: lines rest
  | c :: rest => match lines rest with
    | [] => [[c]]
    | line :: more => (c :: line) :: more

/-- The lines of a text, as strings. -/
def linesOf (s : String) : List String := (lines s.toList).map String.ofList

/-! ## Segments -/

/-- The pieces between the occurrences of `separator`. -/
def segments (separator : Char) : List Char → List (List Char)
  | [] => [[]]
  | c :: rest =>
    if c = separator then [] :: segments separator rest
    else match segments separator rest with
      | [] => [[c]]
      | piece :: more => (c :: piece) :: more

/-- The pieces of a string between the occurrences of `separator`. -/
def segmentsOf (separator : Char) (s : String) : List String :=
  (segments separator s.toList).map String.ofList

theorem segments_ne_nil (separator : Char) (cs : List Char) : segments separator cs ≠ [] := by
  cases cs with
  | nil => simp [segments]
  | cons c rest =>
    rw [segments]
    split
    · simp
    · split <;> simp

/-- The pieces with `separator` between neighbours. -/
def joined (separator : String) : List String → String
  | [] => ""
  | [piece] => piece
  | piece :: more => piece ++ separator ++ joined separator more

@[simp] theorem joined_nil (separator : String) : joined separator [] = "" := rfl

@[simp] theorem joined_singleton (separator piece : String) : joined separator [piece] = piece := rfl

@[simp] theorem joined_cons_cons (separator piece next : String) (more : List String) :
    joined separator (piece :: next :: more) =
      piece ++ separator ++ joined separator (next :: more) := rfl

end BindingSynthesis.Text
