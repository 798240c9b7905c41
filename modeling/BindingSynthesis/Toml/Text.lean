import BindingSynthesis.Toml.Scalar

/-!
# BindingSynthesis.Toml.Text

Strings and keys in TOML.

1. Double quotes allow escapes, single quotes do not.  Three of either enclose
   several lines; an end of a line right after them does not count, and every
   end of a line within is a line feed.
2. Three quotes of the same kind end a string of several lines; up to two more
   in front of them belong to it.
3. A backslash at the end of a line takes away all blanks and ends of lines that
   follow.
4. A bare key consists of letters, digits, underscores and dashes of ASCII.
-/

namespace BindingSynthesis.Toml

/-- The character with a number of exactly so many hexadecimal digits. -/
def codePoint? (digits : Nat) (cs : List Char) : Option (Char × List Char) :=
  let ds := cs.take digits
  let n := ofDigits 16 ds
  if ds.length = digits ∧ ds.all (fun d => (hexDigit? d).isSome) ∧ n.isValidChar then
    some (Char.ofNat n, cs.drop digits)
  else none

/-- The character behind a backslash. -/
def escape? : List Char → Option (Char × List Char)
  | 'b' :: cs => some ('\x08', cs)
  | 't' :: cs => some ('\t', cs)
  | 'n' :: cs => some ('\n', cs)
  | 'f' :: cs => some ('\x0c', cs)
  | 'r' :: cs => some ('\r', cs)
  | '"' :: cs => some ('"', cs)
  | '\\' :: cs => some ('\\', cs)
  | 'u' :: cs => codePoint? 4 cs
  | 'U' :: cs => codePoint? 8 cs
  | _ => none

/-- The characters up to the quote that ends a string within a line; read with
so much fuel. -/
def lineString? (quote : Char) : Nat → List Char → Option (List Char × List Char)
  | 0, _ | _, [] => none
  | fuel + 1, c :: cs =>
    if c = quote then some ([], cs)
    else if c = '\\' ∧ quote = '"' then do
      let (e, cs) ← escape? cs
      let (more, rest) ← lineString? quote fuel cs
      pure (e :: more, rest)
    else if isPrintable c then do
      let (more, rest) ← lineString? quote fuel cs
      pure (c :: more, rest)
    else none

/-- The text behind blanks and ends of lines, with so much fuel. -/
def skipBlankLines : Nat → List Char → List Char
  | 0, cs => cs
  | fuel + 1, cs => match newline? (skipSpace cs) with
    | some rest => skipBlankLines fuel rest
    | none => skipSpace cs

/-- The characters up to the three quotes that end a string of several lines;
read with so much fuel. -/
def longString? (quote : Char) : Nat → List Char → Option (List Char × List Char)
  | 0, _ | _, [] => none
  | fuel + 1, c :: cs =>
    let quotes := ((c :: cs).takeWhile (· == quote)).length
    if 3 ≤ quotes then
      let inside := min (quotes - 3) 2
      some (List.replicate inside quote, (c :: cs).drop (3 + inside))
    else if c = '\\' ∧ quote = '"' then
      match newline? (skipSpace cs) with
      | some rest => longString? quote fuel (skipBlankLines rest.length rest)
      | none => do
        let (e, cs) ← escape? cs
        let (more, rest) ← longString? quote fuel cs
        pure (e :: more, rest)
    else match newline? (c :: cs) with
      | some rest => do
        let (more, rest) ← longString? quote fuel rest
        pure ('\n' :: more, rest)
      | none =>
        if isPrintable c then do
          let (more, rest) ← longString? quote fuel cs
          pure (c :: more, rest)
        else none

/-- The text without an end of a line in front. -/
def dropNewline (cs : List Char) : List Char := (newline? cs).getD cs

/-- A string on several lines or within one. -/
def string? : List Char → Option (String × List Char)
  | '"' :: '"' :: '"' :: cs => long '"' cs
  | '\'' :: '\'' :: '\'' :: cs => long '\'' cs
  | '"' :: cs => short '"' cs
  | '\'' :: cs => short '\'' cs
  | _ => none
where
  long (quote : Char) (cs : List Char) : Option (String × List Char) :=
    (longString? quote cs.length (dropNewline cs)).map fun (text, rest) => (String.ofList text, rest)
  short (quote : Char) (cs : List Char) : Option (String × List Char) :=
    (lineString? quote cs.length cs).map fun (text, rest) => (String.ofList text, rest)

/-! ## Keys -/

/-- A character of a bare key. -/
def isKeyChar (c : Char) : Bool := c.isAlphanum || c == '_' || c == '-'

/-- A part of a key: a bare one, or a string within a line. -/
def keyPart? (cs : List Char) : Option (String × List Char) :=
  match cs with
  | '"' :: rest => (lineString? '"' rest.length rest).map fun (text, rest) => (String.ofList text, rest)
  | '\'' :: rest =>
    (lineString? '\'' rest.length rest).map fun (text, rest) => (String.ofList text, rest)
  | cs =>
    let name := cs.takeWhile isKeyChar
    if name.isEmpty then none else some (String.ofList name, cs.drop name.length)

/-- The parts of a key, with dots between them and blanks around them; read with
so much fuel. -/
def keyParts? : Nat → List Char → Option (List String × List Char)
  | 0, _ => none
  | fuel + 1, cs => do
    let (part, cs) ← keyPart? (skipSpace cs)
    match skipSpace cs with
    | '.' :: cs => do
      let (more, rest) ← keyParts? fuel cs
      pure (part :: more, rest)
    | rest => pure ([part], rest)

/-- A key with as many parts as this, or values as deep as this, are refused. -/
def depthLimit : Nat := 80

/-- A key: its parts but the last, the last, and the rest of the text. -/
def key? (cs : List Char) : Option (List String × String × List Char) := do
  let (parts, rest) ← keyParts? cs.length cs
  let last ← parts.getLast?
  if depthLimit ≤ parts.length then none else pure (parts.dropLast, last, rest)

end BindingSynthesis.Toml
