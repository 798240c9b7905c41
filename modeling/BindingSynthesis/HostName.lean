import BindingSynthesis.Text.Numeric
import BindingSynthesis.Text.Uppercase
import BindingSynthesis.Text.Replace

/-!
# BindingSynthesis.HostName

Names of the host language, which is Java, made from foreign names.

1. `sanitize` keeps letters, digits and underscores of ASCII and turns every
   other character into an underscore.
2. `guardReserved` appends `_py` to the names of methods that every host object
   has.
3. A foreign name is usable if it is an identifier of the host language and no
   keyword.  Its host name is guarded, then sanitized; since that may leave a
   bare underscore, the result has to be usable again.
-/

namespace BindingSynthesis.HostName

/-! ## Words with a meaning of their own -/

/-- What is appended to the name of a method that every host object has. -/
def reservedEnding : String := "_py"

/-- The names of methods that every host object has, and `void`. -/
def reservedMethods : List String :=
  ["equals", "hashCode", "toString", "getClass", "notify", "notifyAll", "wait", "finalize", "void"]

/-- The keywords and literals of the host language. -/
def keywords : List String :=
  ["abstract", "assert", "boolean", "break", "byte", "case", "catch", "char", "class", "const",
   "continue", "default", "do", "double", "else", "enum", "extends", "final", "finally", "float",
   "for", "goto", "if", "implements", "import", "instanceof", "int", "interface", "long",
   "native", "new", "package", "private", "protected", "public", "return", "short", "static",
   "strictfp", "super", "switch", "synchronized", "this", "throw", "throws", "transient", "try",
   "void", "volatile", "while", "true", "false", "null", "_"]

/-! ## Sanitized names -/

/-- A letter, digit or underscore of ASCII. -/
def isWordChar (c : Char) : Bool := Text.isLatinLetter c || Text.isDigit c || c = '_'

/-- The character itself if it is a word character, and an underscore
otherwise. -/
def sanitizeChar (c : Char) : Char := if isWordChar c then c else '_'

/-- The name with every character but word characters replaced by an
underscore. -/
def sanitize (name : String) : String := String.ofList (name.toList.map sanitizeChar)

/-- The name, marked if every host object has a method of that name. -/
def guardReserved (name : String) : String :=
  if name ∈ reservedMethods then name ++ reservedEnding else name

/-- The host name of a foreign callable, whether usable or not. -/
def ofForeign (name : String) : String := sanitize (guardReserved name)

theorem isWordChar_sanitizeChar (c : Char) : isWordChar (sanitizeChar c) = true := by
  rw [sanitizeChar]
  split
  · assumption
  · decide

theorem sanitizeChar_of_isWordChar {c : Char} (h : isWordChar c = true) : sanitizeChar c = c := by
  rw [sanitizeChar, if_pos h]

@[simp] theorem toList_sanitize (name : String) :
    (sanitize name).toList = name.toList.map sanitizeChar := by
  simp [sanitize]

@[simp] theorem sanitize_sanitize (name : String) : sanitize (sanitize name) = sanitize name := by
  have h : sanitizeChar ∘ sanitizeChar = sanitizeChar :=
    funext fun c => sanitizeChar_of_isWordChar (isWordChar_sanitizeChar c)
  rw [sanitize, toList_sanitize, List.map_map, h, sanitize]

/-! ## Usable names -/

/-- The character may start an identifier. -/
def isStart (c : Char) : Bool := Text.isAlphabetic c || c = '_' || c = '$'

/-- The character may continue an identifier. -/
def isPart (c : Char) : Bool := Text.isAlphanumeric c || c = '_' || c = '$'

/-- The characters form an identifier. -/
def isIdentifier : List Char → Bool
  | [] => false
  | c :: more => isStart c && more.all isPart

/-- The name is an identifier and no keyword. -/
def isUsable (name : String) : Bool :=
  isIdentifier name.toList && !keywords.contains name

/-- The host name of a foreign callable, if both names are usable. -/
def forBinding? (name : String) : Option String :=
  if isUsable name && isUsable (ofForeign name) then some (ofForeign name) else none

/-! ## Other names -/

/-- The name under which a submodule is bound on the foreign side. -/
def moduleAlias (modulePath : String) : String :=
  "_" ++ sanitize (String.ofList (Text.replaceChar '.' ['_'] modulePath.toList))

/-- The text with its first character in upper case. -/
def capitalize (s : String) : String :=
  match s.toList with
  | [] => ""
  | c :: more => String.ofList (Text.uppercase c ++ more)

end BindingSynthesis.HostName
