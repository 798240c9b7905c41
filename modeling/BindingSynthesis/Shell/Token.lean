/-!
# BindingSynthesis.Shell.Token

The tokens of a shell script.

1. Words are cut at blanks and operators.  Single quotes keep everything;
   double quotes keep everything but parameters and the backslash in front of
   `$`, `"`, `\`, a backquote or the end of a line.
2. A parameter is a dollar sign with a name, a digit or one of `?`, `$`, `#`,
   `@` and `*`, or with any of them in braces.
3. A number right before `>` is that of the redirected stream.
4. Every token has the number of the line in which the scanner stands behind
   it.  The last one is the end of the script, or the fault that keeps the
   script from having one.
-/

namespace BindingSynthesis.Shell

/-- A piece of a word: text, or a parameter to be replaced by its value. -/
inductive Piece where
  | text (cs : List Char)
  | param (quoted : Bool) (name : String)
  deriving DecidableEq, Repr

/-- A word before its parameters are replaced. -/
abbrev Word := List Piece

/-- What is left open at the end of a script. -/
inductive OpenEnd where
  | quotation
  | braces
  deriving DecidableEq, Repr

/-- A token of a script. -/
inductive Token where
  | word (w : Word)
  | newline
  | semicolon
  | andIf
  | orIf
  /-- The output of a stream goes to a file. -/
  | redirect (stream : Nat)
  /-- The output of a stream goes where that of another one goes. -/
  | duplicate (stream : Nat)
  /-- An operator that no list of simple commands has. -/
  | sign (text : String)
  | finish
  | cut (what : OpenEnd)
  deriving DecidableEq, Repr

/-- A token with the number of its line. -/
abbrev Placed := Nat × Token

/-- What the scanner is inside of. -/
inductive Mode where
  | plain
  | comment
  | single
  | double
  | escaped (inDouble : Bool)
  | dollar (inDouble : Bool)
  /-- Behind an operator that the next character may lengthen. -/
  | behind (t : Token)
  /-- The characters of a name so far, the last one first. -/
  | name (inDouble : Bool) (cs : List Char)
  | braced (inDouble : Bool) (cs : List Char)
  deriving DecidableEq, Repr

/-- The state of the scanner.  Tokens and pieces are kept the last one first. -/
structure Scan where
  mode : Mode := .plain
  line : Nat := 1
  tokens : List Placed := []
  /-- The word that has begun. -/
  word : Option (List Piece) := none
  deriving Repr

namespace Scan

/-- Adds a piece to the word, which begins with it if there is none. -/
def addPiece (s : Scan) (p : Piece) : Scan := { s with word := some (p :: s.word.getD []) }

/-- Adds a character to the word. -/
def addChar (s : Scan) (c : Char) : Scan :=
  match s.word with
  | some (.text cs :: more) => { s with word := some (.text (cs ++ [c]) :: more) }
  | _ => s.addPiece (.text [c])

/-- Ends the word, if one has begun. -/
def endWord (s : Scan) : Scan :=
  match s.word with
  | none => s
  | some ps => { s with word := none, tokens := (s.line, .word ps.reverse) :: s.tokens }

/-- Adds a token behind the word. -/
def addToken (s : Scan) (t : Token) : Scan :=
  let s := s.endWord
  { s with tokens := (s.line, t) :: s.tokens }

/-- The mode outside or inside of double quotes. -/
def back (inDouble : Bool) : Mode := if inDouble then .double else .plain

/-- A character that can stand in a name. -/
def isNameChar (c : Char) : Bool := c.isAlphanum || c == '_'

/-- Begins an operator behind the word. -/
def operator (s : Scan) (t : Token) : Scan := { s.endWord with mode := .behind t }

/-- Begins a redirection; a word that is a lone digit right before it names the
stream. -/
def redirect (s : Scan) : Scan :=
  match s.word with
  | some [.text [c]] =>
    if c.isDigit then { s with word := none, mode := .behind (.redirect (c.toNat - 48)) }
    else s.operator (.redirect 1)
  | _ => s.operator (.redirect 1)

/-- The operator that another one and a character behind it make. -/
def longer? : Token → Char → Option Token
  | .sign "&", '&' => some .andIf
  | .sign "|", '|' => some .orIf
  | .semicolon, ';' => some (.sign ";;")
  | .redirect stream, '&' => some (.duplicate stream)
  | .redirect stream, '>' => some (.redirect stream)
  | _, _ => none

/-- Takes a character outside of quotes. -/
def plain (s : Scan) (c : Char) : Scan :=
  match c with
  | ' ' | '\t' => s.endWord
  | '\n' => let s := s.endWord; { s with line := s.line + 1 }.addToken .newline
  | ';' => s.operator .semicolon
  | '&' | '|' => s.operator (.sign (String.singleton c))
  | '<' | '(' | ')' => s.addToken (.sign (String.singleton c))
  | '>' => s.redirect
  | '\'' => { s with mode := .single, word := some (s.word.getD []) }
  | '"' => { s with mode := .double, word := some (s.word.getD []) }
  | '\\' => { s with mode := .escaped false }
  | '$' => { s with mode := .dollar false }
  | '#' => if s.word.isNone then { s with mode := .comment } else s.addChar c
  | c => s.addChar c

/-- Takes a character inside of double quotes. -/
def double (s : Scan) (c : Char) : Scan :=
  match c with
  | '"' => { s with mode := .plain }
  | '\\' => { s with mode := .escaped true }
  | '$' => { s with mode := .dollar true }
  | '\n' => { s.addChar c with line := s.line + 1 }
  | c => s.addChar c

/-- Takes a character outside or inside of double quotes. -/
def usual (inDouble : Bool) (s : Scan) (c : Char) : Scan :=
  let s := { s with mode := back inDouble }
  if inDouble then s.double c else s.plain c

/-- Takes a character. -/
def next (s : Scan) (c : Char) : Scan :=
  match s.mode with
  | .plain => s.plain c
  | .double => s.double c
  | .behind t => match longer? t c with
    | some t => { s with mode := .plain }.addToken t
    | none => ({ s with mode := .plain }.addToken t).plain c
  | .comment => if c = '\n' then { s with mode := .plain }.plain c else s
  | .single =>
    if c = '\'' then { s with mode := .plain }
    else { s.addChar c with line := if c = '\n' then s.line + 1 else s.line }
  | .escaped inDouble =>
    let s := { s with mode := back inDouble }
    if c = '\n' then { s with line := s.line + 1 }
    else if inDouble ∧ c ∉ ['$', '"', '\\', '\x60'] then (s.addChar '\\').addChar c
    else s.addChar c
  | .dollar inDouble =>
    if c = '\x7b' then { s with mode := .braced inDouble [] }
    else if c.isDigit ∨ c ∈ ['?', '$', '#', '@', '*'] then
      { s.addPiece (.param inDouble (String.singleton c)) with mode := back inDouble }
    else if isNameChar c then { s with mode := .name inDouble [c] }
    else usual inDouble (s.addChar '$') c
  | .name inDouble cs =>
    if isNameChar c then { s with mode := .name inDouble (c :: cs) }
    else usual inDouble (s.addPiece (.param inDouble (String.ofList cs.reverse))) c
  | .braced inDouble cs =>
    if c = '\x7d' then
      { s.addPiece (.param inDouble (String.ofList cs.reverse)) with mode := back inDouble }
    else { s with mode := .braced inDouble (c :: cs) }

end Scan

/-- The tokens of a script. -/
def tokens (script : String) : List Placed :=
  let s := script.toList.foldl Scan.next {}
  let ended (s : Scan) : List Placed := (s.addToken .finish).tokens.reverse
  let cut (what : OpenEnd) : List Placed := ((s.line, .cut what) :: s.tokens).reverse
  match s.mode with
  | .plain | .comment => ended s
  | .behind t => ended (s.addToken t)
  | .dollar false => ended (s.addChar '$')
  | .escaped false => ended (s.addChar '\\')
  | .name false cs => ended (s.addPiece (.param false (String.ofList cs.reverse)))
  | .braced false _ => cut .braces
  | _ => cut .quotation

end BindingSynthesis.Shell
