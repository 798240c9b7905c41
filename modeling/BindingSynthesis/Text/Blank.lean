import BindingSynthesis.Text.Ranges

/-!
# BindingSynthesis.Text.Blank

White space in the sense of the Unicode property *White_Space*, texts that
hold nothing else, and trimming.  The zero-width space and the byte order mark
do not count as white space.
-/

namespace BindingSynthesis.Text

/-- The characters with the property *White_Space*. -/
def blankRanges : List (Nat × Nat) :=
  [(0x9, 0xD), (0x20, 0x20), (0x85, 0x85), (0xA0, 0xA0), (0x1680, 0x1680), (0x2000, 0x200A),
   (0x2028, 0x2029), (0x202F, 0x202F), (0x205F, 0x205F), (0x3000, 0x3000)]

/-- The character has the property *White_Space*. -/
def isBlankChar (c : Char) : Bool := inRanges blankRanges c.toNat

/-- The text holds white space only; the empty text does. -/
def isBlank (s : String) : Bool := s.toList.all isBlankChar

/-- The characters without the white space at both ends. -/
def trimChars (cs : List Char) : List Char :=
  ((cs.dropWhile isBlankChar).reverse.dropWhile isBlankChar).reverse

/-- The text without the white space at both ends. -/
def trim (s : String) : String := String.ofList (trimChars s.toList)

@[simp] theorem isBlank_empty : isBlank "" = true := by simp [isBlank]

end BindingSynthesis.Text
