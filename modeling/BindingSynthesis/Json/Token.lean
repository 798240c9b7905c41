import BindingSynthesis.Json.Numeral

/-!
# BindingSynthesis.Json.Token

The tokens of a JSON text.

1. Space, tab, line feed and carriage return separate tokens; no other white
   space does.
2. A string ends at the next bare quote.  It may not hold control characters,
   and a backslash in it starts one of the known escapes; a `\u` escape needs
   four hexadecimal digits, and a pair of surrogates stands for one character.
3. Where a token breaks off, the rest of the text is not looked at: such a token
   is always the last one.
-/

namespace BindingSynthesis.Json

open Text

inductive Token where
  | beginArray
  | endArray
  | beginObject
  | endObject
  | colon
  | comma
  /-- `null`, `true` or `false`. -/
  | word (v : Reading)
  | number (n : Number)
  | string (s : Quoted)
  /-- A string that breaks off. -/
  | brokenString (b : Break)
  /-- Anything else that breaks off. -/
  | broken (b : Break)

/-! ## Strings -/

/-- The value of a hexadecimal digit. -/
def hexValue? (c : Char) : Option Nat :=
  if '0' ≤ c ∧ c ≤ '9' then some (c.toNat - 48)
  else if 'a' ≤ c ∧ c ≤ 'f' then some (c.toNat - 87)
  else if 'A' ≤ c ∧ c ≤ 'F' then some (c.toNat - 55)
  else none

/-- The code unit that four hexadecimal digits write. -/
def hexUnit? (a b c d : Char) : Option Nat := do
  pure ((((← hexValue? a) * 16 + (← hexValue? b)) * 16 + (← hexValue? c)) * 16 + (← hexValue? d))

/-- What follows `\u` when it is no code unit: the end of the text, if fewer
than four octets are left. -/
def cutUnit (rest : List Char) : Fault :=
  if (rest.flatMap String.utf8EncodeChar).length < 4 then .truncated else .malformed

/-- The character that a one-letter escape stands for. -/
def escaped? (c : Char) : Option Char :=
  if c = '"' then some '"'
  else if c = '\\' then some '\\'
  else if c = '/' then some '/'
  else if c = 'b' then some '\x08'
  else if c = 'f' then some '\x0c'
  else if c = 'n' then some '\n'
  else if c = 'r' then some '\r'
  else if c = 't' then some '\t'
  else none

def isHighSurrogate (n : Nat) : Bool := 0xD800 ≤ n && n < 0xDC00

def isLowSurrogate (n : Nat) : Bool := 0xDC00 ≤ n && n < 0xE000

/-- The character that a pair of surrogates stands for. -/
def ofSurrogates (high low : Nat) : Char :=
  Char.ofNat (0x10000 + (high - 0xD800) * 0x400 + (low - 0xDC00))

/-- A piece of a string: a character, or one half of a surrogate pair. -/
inductive Piece where
  | char (c : Char)
  | surrogate (n : Nat)

/-- The piece that a `\u` escape writes. -/
def Piece.ofUnit (n : Nat) : Piece :=
  if isHighSurrogate n || isLowSurrogate n then .surrogate n else .char (Char.ofNat n)

/-- The characters that the pieces make, unless a surrogate is unpaired. -/
def pairUp : List Piece → Option (List Char)
  | [] => some []
  | .char c :: more => (pairUp more).map (c :: ·)
  | .surrogate high :: .surrogate low :: more =>
    if isHighSurrogate high && isLowSurrogate low then
      (pairUp more).map (ofSurrogates high low :: ·)
    else none
  | .surrogate _ :: _ => none

/-- A surrogate is unpaired in a string that breaks off after these pieces: a
high one at the very end may still have found its partner. -/
def isUnpaired : List Piece → Bool
  | [] => false
  | .char _ :: more => isUnpaired more
  | [.surrogate n] => isLowSurrogate n
  | .surrogate high :: .surrogate low :: more =>
    !(isHighSurrogate high && isLowSurrogate low) || isUnpaired more
  | .surrogate _ :: .char _ :: _ => true

/-- What follows an opening quote: the pieces up to the closing quote or the
break, the break, the rest. -/
structure StringScan where
  pieces : List Piece
  fault? : Option Fault
  rest : List Char

/-- The string has one more piece in front. -/
def StringScan.push (p : Piece) (s : StringScan) : StringScan := { s with pieces := p :: s.pieces }

/-- A string that breaks off at once. -/
def StringScan.cut (f : Fault) : StringScan := ⟨[], some f, []⟩

/-- Scans a string behind its opening quote. -/
def scanString : List Char → StringScan
  | [] => .cut .truncated
  | '"' :: rest => ⟨[], none, rest⟩
  | '\\' :: 'u' :: a :: b :: c :: d :: rest => match hexUnit? a b c d with
    | some n => (scanString rest).push (.ofUnit n)
    | none => .cut (cutUnit (a :: b :: c :: d :: rest))
  | '\\' :: 'u' :: rest => .cut (cutUnit rest)
  | ['\\'] => .cut .truncated
  | '\\' :: c :: rest => match escaped? c with
    | some e => (scanString rest).push (.char e)
    | none => .cut .malformed
  | c :: rest => if c.toNat < 0x20 then .cut .malformed else (scanString rest).push (.char c)

/-- The token of a scanned string. -/
def StringScan.token (s : StringScan) : Token :=
  match s.fault? with
  | none => .string ⟨(pairUp s.pieces).map String.ofList⟩
  | some f => .brokenString ⟨if isUnpaired s.pieces then .malformed else f, f⟩

/-! ## Words -/

/-- What follows the first letter of a word: the rest, if the letters are
there. -/
def scanLetters : List Char → List Char → Except Fault (List Char)
  | [], rest => .ok rest
  | _ :: _, [] => .error .truncated
  | c :: more, d :: rest => if c = d then scanLetters more rest else .error .malformed

/-! ## Texts -/

/-- The characters that separate tokens. -/
def isSpace (c : Char) : Bool := c = ' ' || c = '\t' || c = '\n' || c = '\r'

/-- The token that starts with `c`, and the rest. -/
def scanToken (c : Char) (rest : List Char) : Token × List Char :=
  let word (letters : List Char) (v : Reading) : Token × List Char :=
    match scanLetters letters rest with
    | .ok rest' => (.word v, rest')
    | .error f => (.broken (.always f), [])
  if c = '[' then (.beginArray, rest)
  else if c = ']' then (.endArray, rest)
  else if c = '{' then (.beginObject, rest)
  else if c = '}' then (.endObject, rest)
  else if c = ':' then (.colon, rest)
  else if c = ',' then (.comma, rest)
  else if c = '"' then let s := scanString rest; (s.token, s.rest)
  else if c = 'n' then word ['u', 'l', 'l'] .null
  else if c = 't' then word ['r', 'u', 'e'] (.bool true)
  else if c = 'f' then word ['a', 'l', 's', 'e'] (.bool false)
  else if c = '-' ∨ isDigit c then match scanNumber (c :: rest) with
    | .ok (n, rest') => (.number n, rest')
    | .error b => (.broken b, [])
  else (.broken (.always .malformed), [])

/-- The tokens of a text, of which at most `fuel` characters start one. -/
def scanTokens : Nat → List Char → List Token
  | 0, _ => []
  | _ + 1, [] => []
  | fuel + 1, c :: rest =>
    if isSpace c then scanTokens fuel rest
    else
      let (t, rest') := scanToken c rest
      t :: scanTokens fuel rest'

/-- The tokens of a text: each takes at least one character. -/
def tokens (cs : List Char) : List Token := scanTokens cs.length cs

end BindingSynthesis.Json
