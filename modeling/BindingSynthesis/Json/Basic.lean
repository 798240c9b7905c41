import BindingSynthesis.Text.Lines

/-!
# BindingSynthesis.Json.Basic

JSON values as this library writes them, and their two written forms.

1. Numbers are natural numbers, and the members of an object keep their order.
2. `compact` writes no space at all.
3. `pretty` writes every element and member on a line of its own, indented by
   two spaces for each level, and `[]` and `{}` for what is empty.
4. In a string the quote, the backslash and the control characters are
   escaped, the common ones by a letter; every other character stands for
   itself.
-/

namespace BindingSynthesis

/-- A JSON value without fractions and signs. -/
inductive Json where
  | null
  | bool (b : Bool)
  | number (n : Nat)
  | string (s : String)
  | array (items : List Json)
  | object (members : List (String × Json))

namespace Json

/-! ## Strings -/

/-- A digit of a hexadecimal number, in lower case. -/
def hexDigit (n : Nat) : Char := if n < 10 then Char.ofNat (48 + n) else Char.ofNat (87 + n)

/-- How a character is written inside a string. -/
def escapeChar (c : Char) : List Char :=
  if c = '"' then ['\\', '"']
  else if c = '\\' then ['\\', '\\']
  else if c = '\x08' then ['\\', 'b']
  else if c = '\x0c' then ['\\', 'f']
  else if c = '\n' then ['\\', 'n']
  else if c = '\r' then ['\\', 'r']
  else if c = '\t' then ['\\', 't']
  else if c.toNat < 0x20 then ['\\', 'u', '0', '0', hexDigit (c.toNat / 16), hexDigit (c.toNat % 16)]
  else [c]

/-- The characters of a string between its quotes. -/
def escape (cs : List Char) : List Char := cs.flatMap escapeChar

/-- A written string. -/
def quote (s : String) : List Char := '"' :: escape s.toList ++ ['"']

@[simp] theorem escape_nil : escape [] = [] := rfl

@[simp] theorem escape_cons (c : Char) (cs : List Char) :
    escape (c :: cs) = escapeChar c ++ escape cs := by simp [escape]

theorem escape_append (xs ys : List Char) : escape (xs ++ ys) = escape xs ++ escape ys := by
  simp [escape]

/-! ## Compact form -/

/-- A written number. -/
def digits (n : Nat) : List Char := Nat.toDigits 10 n

/-- A written truth value. -/
def word (b : Bool) : List Char := if b then ['t', 'r', 'u', 'e'] else ['f', 'a', 'l', 's', 'e']

mutual

/-- The compact form. -/
def writeCompact : Json → List Char
  | .null => ['n', 'u', 'l', 'l']
  | .bool b => word b
  | .number n => digits n
  | .string s => quote s
  | .array items => '[' :: writeCompactItems items ++ [']']
  | .object members => '{' :: writeCompactMembers members ++ ['}']
termination_by structural v => v

/-- The elements of an array, with commas between them. -/
def writeCompactItems : List Json → List Char
  | [] => []
  | [v] => writeCompact v
  | v :: more => writeCompact v ++ ',' :: writeCompactItems more
termination_by structural vs => vs

/-- The members of an object, with commas between them. -/
def writeCompactMembers : List (String × Json) → List Char
  | [] => []
  | [m] => writeCompactMember m
  | m :: more => writeCompactMember m ++ ',' :: writeCompactMembers more
termination_by structural ms => ms

/-- A member of an object. -/
def writeCompactMember : String × Json → List Char
  | (key, v) => quote key ++ ':' :: writeCompact v
termination_by structural m => m

end

/-- The compact form, as a string. -/
def compact (v : Json) : String := String.ofList (writeCompact v)

/-! ## Indented form -/

/-- The start of a line at a level of indentation. -/
def newline (level : Nat) : List Char := '\n' :: List.replicate (2 * level) ' '

mutual

/-- The indented form, at a level of indentation. -/
def writePretty (level : Nat) : Json → List Char
  | .null => ['n', 'u', 'l', 'l']
  | .bool b => word b
  | .number n => digits n
  | .string s => quote s
  | .array [] => ['[', ']']
  | .array (v :: more) => '[' :: writePrettyItems (level + 1) (v :: more) ++ newline level ++ [']']
  | .object [] => ['{', '}']
  | .object (m :: more) =>
    '{' :: writePrettyMembers (level + 1) (m :: more) ++ newline level ++ ['}']
termination_by structural v => v

/-- The elements of an array, each on its own line. -/
def writePrettyItems (level : Nat) : List Json → List Char
  | [] => []
  | [v] => newline level ++ writePretty level v
  | v :: more => newline level ++ writePretty level v ++ ',' :: writePrettyItems level more
termination_by structural vs => vs

/-- The members of an object, each on its own line. -/
def writePrettyMembers (level : Nat) : List (String × Json) → List Char
  | [] => []
  | [m] => newline level ++ writePrettyMember level m
  | m :: more => newline level ++ writePrettyMember level m ++ ',' :: writePrettyMembers level more
termination_by structural ms => ms

/-- A member of an object. -/
def writePrettyMember (level : Nat) : String × Json → List Char
  | (key, v) => quote key ++ ':' :: ' ' :: writePretty level v
termination_by structural m => m

end

/-- The indented form, as a string. -/
def pretty (v : Json) : String := String.ofList (writePretty 0 v)

end Json

end BindingSynthesis
