import BindingSynthesis.Shell.Token

/-!
# BindingSynthesis.Shell.Command

The commands of a shell script.

1. A script is read line by line, and a line is a list of simple commands.
   Each is connected to what came before: it runs in any case, only after a
   success (`&&`) or only after a failure (`||`).  A line goes on behind a
   connective.
2. Assignments stand before the words of a command; redirections stand anywhere
   in it.
3. A token that cannot stand where it does is a fault of the script: the lines
   before it are kept, and its own line is lost.
-/

namespace BindingSynthesis.Shell

/-- Where a stream goes: to where another one goes, or nowhere. -/
structure Redirect where
  stream : Nat
  /-- `none` if the output is thrown away. -/
  toStream : Option Nat
  deriving DecidableEq, Repr

/-- A simple command. -/
structure Command where
  line : Nat
  assignments : List (String × Word) := []
  words : List Word := []
  redirects : List Redirect := []
  deriving DecidableEq, Repr

/-- How a command is connected to what came before. -/
inductive Connective where
  | always
  | afterSuccess
  | afterFailure
  deriving DecidableEq, Repr

/-- A command of a script. -/
structure Item where
  connective : Connective
  /-- An exclamation mark turns the status around. -/
  negated : Bool
  command : Command
  deriving DecidableEq, Repr

/-- The text of a word in which nothing is replaced. -/
def literal? : Word → Option (List Char)
  | [] => some []
  | .text cs :: more => (literal? more).map (cs ++ ·)
  | .param .. :: _ => none

/-- The name and the value of a word that assigns. -/
def assignment? : Word → Option (String × Word)
  | .text cs :: more =>
    let name := cs.takeWhile Scan.isNameChar
    match cs.drop name.length, name with
    | '=' :: value, c :: _ =>
      if c.isDigit then none else some (String.ofList name, .text value :: more)
    | _, _ => none
  | _ => none

namespace Command

/-- The command with one more word. -/
def addWord (c : Command) (w : Word) : Command :=
  match c.words, assignment? w with
  | [], some a => { c with assignments := c.assignments ++ [a] }
  | _, _ => { c with words := c.words ++ [w] }

/-- The command with one more redirection. -/
def addRedirect (c : Command) (stream : Nat) (toStream : Option Nat) : Command :=
  { c with redirects := c.redirects ++ [⟨stream, toStream⟩] }

end Command

/-- What is wrong with a script. -/
inductive SyntaxFault where
  | unexpected (token : String)
  | unclosed (what : OpenEnd)
  | badStream
  deriving DecidableEq, Repr

namespace SyntaxFault

/-- What a token is called where it cannot stand. -/
def nameOf : Token → String
  | .word _ => "word"
  | .newline => "newline"
  | .semicolon => "\";\""
  | .andIf => "\"&&\""
  | .orIf => "\"||\""
  | .redirect _ | .duplicate _ => "redirection"
  | .sign text => "\"" ++ text ++ "\""
  | .finish | .cut _ => "end of file"

/-- The fault of a token that cannot stand where it does. -/
def ofToken : Token → SyntaxFault
  | .cut what => .unclosed what
  | t => .unexpected (nameOf t)

/-- A fault in words. -/
def message : SyntaxFault → String
  | .unexpected token => token ++ " unexpected"
  | .unclosed .quotation => "Unterminated quoted string"
  | .unclosed .braces => "Missing '\x7d'"
  | .badStream => "Bad fd number"

end SyntaxFault

/-- The lines of a script, as far as they are free of faults, and the first
fault with its line. -/
structure Script where
  lines : List (List Item)
  fault : Option (Nat × SyntaxFault) := none
  deriving DecidableEq, Repr

namespace Script

/-- The script with a line in front. -/
def addLine (line : List Item) (s : Script) : Script := { s with lines := line :: s.lines }

/-- A script that breaks off at a token. -/
def brokenAt (t : Placed) : Script := ⟨[], some (t.1, .ofToken t.2)⟩

end Script

/-- Where the reader of a line stands. -/
inductive Place where
  /-- A command may begin or the line may end. -/
  | between
  /-- A command must begin, perhaps in a later line. -/
  | connected
  /-- A command must begin in this line. -/
  | negated
  | inside (c : Command)
  deriving DecidableEq, Repr

/-- The part of a line that has been read. -/
structure Begun where
  /-- The complete commands. -/
  items : List Item := []
  connective : Connective := .always
  negated : Bool := false
  place : Place := .between
  deriving DecidableEq, Repr

namespace Begun

/-- The command that has begun; one begins if there is none. -/
def command (b : Begun) (line : Nat) : Command :=
  match b.place with
  | .inside c => c
  | _ => { line }

/-- Goes on with a command. -/
def goOn (b : Begun) (c : Command) : Begun := { b with place := .inside c }

/-- Ends a command. -/
def close (b : Begun) (c : Command) (connective : Connective) (place : Place) : Begun :=
  { items := b.items ++ [⟨b.connective, b.negated, c⟩], connective, place }

end Begun

/-- The number of the stream that a word names. -/
def streamOf? (w : Word) : Option Nat :=
  match literal? w with
  | some [c] => if c.isDigit then some (c.toNat - 48) else none
  | _ => none

/-- The script behind the beginning of a line.  Output to a file is thrown
away. -/
def scriptFrom (b : Begun) : List Placed → Script
  | [] => ⟨[b.items], none⟩
  | (line, .word w) :: more =>
    match b.place, decide (w = [.text ['!']]) with
    | .inside c, _ => scriptFrom (b.goOn (c.addWord w)) more
    | .negated, true => ⟨[], some (line, .unexpected "\"!\"")⟩
    | _, true => scriptFrom { b with negated := true, place := .negated } more
    | _, false => scriptFrom (b.goOn (Command.addWord { line } w)) more
  | (line, .redirect stream) :: (_, .word _) :: more =>
    scriptFrom (b.goOn ((b.command line).addRedirect stream none)) more
  | (line, .duplicate stream) :: (_, .word w) :: more =>
    match streamOf? w with
    | some toStream =>
      scriptFrom (b.goOn ((b.command line).addRedirect stream (some toStream))) more
    | none => ⟨[], some (line, .badStream)⟩
  | (_, .redirect _) :: more | (_, .duplicate _) :: more => match more with
    | t :: _ => .brokenAt t
    | [] => ⟨[], none⟩
  | (line, .newline) :: more =>
    match b.place with
    | .inside c => (scriptFrom {} more).addLine (b.close c .always .between).items
    | .between => (scriptFrom {} more).addLine b.items
    | .connected => scriptFrom b more
    | .negated => .brokenAt (line, .newline)
  | (line, t) :: more =>
    match b.place, t with
    | .inside c, .semicolon => scriptFrom (b.close c .always .between) more
    | .inside c, .andIf => scriptFrom (b.close c .afterSuccess .connected) more
    | .inside c, .orIf => scriptFrom (b.close c .afterFailure .connected) more
    | .inside c, .finish => ⟨[(b.close c .always .between).items], none⟩
    | .between, .finish => ⟨[b.items], none⟩
    | _, t => .brokenAt (line, t)

/-- The script that a text writes. -/
def Script.ofText (text : String) : Script := scriptFrom {} (tokens text)

end BindingSynthesis.Shell
