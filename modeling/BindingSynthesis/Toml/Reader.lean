import BindingSynthesis.Toml.Text

/-!
# BindingSynthesis.Toml.Reader

Reading TOML documents.

1. A document is a list of lines, each with a pair, a header, a comment or
   nothing; a value in brackets or a long string may run over several of them.
2. In brackets, comments and ends of lines may stand between the values, and a
   comma after the last; in braces neither.
3. A byte order mark may stand in front of all.
-/

namespace BindingSynthesis.Toml

mutual

/-- The value at the front of a text; read with so much fuel and at a depth of
brackets and braces. -/
def value? : Nat → Nat → List Char → Option (Value × List Char)
  | 0, _, _ => none
  | fuel + 1, depth, cs => match cs with
    | '"' :: _ | '\'' :: _ => (string? cs).map fun (s, rest) => (.string s, rest)
    | '[' :: cs =>
      if depthLimit ≤ depth + 1 then none
      else (items? fuel (depth + 1) cs).map fun (vs, rest) => (.array vs, rest)
    | '\x7b' :: cs =>
      if depthLimit ≤ depth + 1 then none
      else match skipSpace cs with
        | '\x7d' :: rest => some (.table .inline [], rest)
        | cs => do
          let (pairs, rest) ← pairs? fuel (depth + 1) cs
          let ms ← addPairs .inline [] pairs
          pure (.table .inline ms, rest)
    | 't' :: 'r' :: 'u' :: 'e' :: rest => some (.bool true, rest)
    | 'f' :: 'a' :: 'l' :: 's' :: 'e' :: rest => some (.bool false, rest)
    | cs => numeric? cs

/-- The values in brackets, up to the closing one. -/
def items? : Nat → Nat → List Char → Option (List Value × List Char)
  | 0, _, _ => none
  | fuel + 1, depth, cs => match skipLines cs.length cs with
    | ']' :: rest => some ([], rest)
    | cs => do
      let (v, cs) ← value? fuel depth cs
      match skipLines cs.length cs with
      | ']' :: rest => pure ([v], rest)
      | ',' :: cs => do
        let (vs, rest) ← items? fuel depth cs
        pure (v :: vs, rest)
      | _ => none

/-- A pair: a key, an equals sign and a value. -/
def pair? : Nat → Nat → List Char → Option (Pair × List Char)
  | 0, _, _ => none
  | fuel + 1, depth, cs => do
    let (path, key, cs) ← key? cs
    let cs ← expect? '=' cs
    let (v, rest) ← value? fuel depth (skipSpace cs)
    pure (⟨path, key, v⟩, rest)

/-- The pairs in braces, up to the closing one. -/
def pairs? : Nat → Nat → List Char → Option (List Pair × List Char)
  | 0, _, _ => none
  | fuel + 1, depth, cs => do
    let (p, cs) ← pair? fuel depth cs
    match skipSpace cs with
    | '\x7d' :: rest => pure ([p], rest)
    | ',' :: cs => do
      let (ps, rest) ← pairs? fuel depth cs
      pure (p :: ps, rest)
    | _ => none

end

/-- A header in single or double brackets. -/
def header? : List Char → Option (Section × List Char)
  | '[' :: '[' :: cs => do
    let (path, key, cs) ← key? cs
    let rest ← expect? ']' (← expect? ']' cs)
    pure (⟨true, path, key, []⟩, rest)
  | '[' :: cs => do
    let (path, key, cs) ← key? cs
    let rest ← expect? ']' cs
    pure (⟨false, path, key, []⟩, rest)
  | _ => none

/-- The pairs up to the first header, and the sections from there on; read with
so much fuel. -/
def lines? : Nat → List Char → Option (List Pair × List Section)
  | 0, cs => if cs.isEmpty then some ([], []) else none
  | fuel + 1, cs => match skipSpace cs with
    | [] => some ([], [])
    | '[' :: cs => do
      let (s, cs) ← header? ('[' :: cs)
      let (pairs, sections) ← lines? fuel (← lineEnd? cs)
      pure ([], { s with pairs } :: sections)
    | c :: cs =>
      if c ∈ ['#', '\n', '\r'] then do lines? fuel (← lineEnd? (c :: cs))
      else do
        let (p, cs) ← pair? (2 * cs.length + 3) 0 (c :: cs)
        let (pairs, sections) ← lines? fuel (← lineEnd? cs)
        pure (p :: pairs, sections)

/-- The members of the table that a text writes. -/
def parse? (text : String) : Option Members := do
  let cs := match text.toList with
    | '\uFEFF' :: cs => cs
    | cs => cs
  let (pairs, sections) ← lines? (cs.length + 1) cs
  assemble pairs sections

end BindingSynthesis.Toml
