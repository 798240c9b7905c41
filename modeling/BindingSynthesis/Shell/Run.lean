import BindingSynthesis.Machine.Basic
import BindingSynthesis.Shell.Command
import BindingSynthesis.Shell.Format
import BindingSynthesis.Text.Lines

/-!
# BindingSynthesis.Shell.Run

Running shell scripts that consist of simple commands.

1. An unquoted parameter is cut into words at its blanks; a quoted one stays in
   one piece, and `"$@"` gives a word for each argument.
2. The commands are the few that need no file: writing, testing, assigning and
   ending, by an exit or by a signal to the shell itself.
3. A command that is not known fails with status 127.  A faulty script runs as
   far as its lines are free of faults and ends with status 2.
-/

namespace BindingSynthesis.Shell

/-- The state of a running script. -/
structure State where
  /-- The name that the script goes by. -/
  zero : String
  arguments : List String
  values : List (String × String) := []
  status : Nat := 0
  output : List UInt8 := []
  errors : List UInt8 := []
  ended : Option ExitStatus := none

/-- The number of the running shell. -/
def processNumber : String := "4711"

namespace State

/-- The value of a parameter. -/
def value (s : State) (name : String) : String :=
  match name with
  | "?" => toString s.status
  | "#" => toString s.arguments.length
  | "$" => processNumber
  | "@" | "*" => Text.joined " " s.arguments
  | "0" => s.zero
  | name => match name.toNat? with
    | some n => s.arguments.getD (n - 1) ""
    | none => (s.values.lookup name).getD ""

/-! ## Words -/

/-- The pieces of a text between its blanks. -/
def cut (s : String) : List String :=
  ((s.toList.map fun c => if c = '\t' ∨ c = '\n' then ' ' else c) |> Text.segments ' ').map String.ofList

/-- Words, the last of which is still open. -/
abbrev Fields := List String × Option String

/-- Adds text to the open word. -/
def addText (fs : Fields) (text : String) : Fields := (fs.1, some (fs.2.getD "" ++ text))

/-- Ends the open word. -/
def close (fs : Fields) : Fields :=
  match fs.2 with
  | none => fs
  | some w => (fs.1 ++ [w], none)

/-- Adds words between which the open word ends. -/
def addWords (fs : Fields) : List String → Fields
  | [] => fs
  | [w] => if w = "" then fs else addText fs w
  | w :: more => addWords (close (if w = "" then fs else addText fs w)) more

/-- Adds an argument for each word, without cutting them. -/
def addArguments (fs : Fields) : List String → Fields
  | [] => fs
  | [w] => addText fs w
  | w :: more => addArguments (close (addText fs w)) more

/-- Adds a piece of a word. -/
def addPiece (s : State) (fs : Fields) : Piece → Fields
  | .text cs => addText fs (String.ofList cs)
  | .param true "@" => addArguments fs s.arguments
  | .param true name => addText fs (s.value name)
  | .param false name => addWords fs (cut (s.value name))

/-- The words that a word gives. -/
def expand (s : State) (w : Word) : List String :=
  let start : Fields := ([], if w.isEmpty then some "" else none)
  (close (w.foldl s.addPiece start)).1

/-- The text that a word gives where it is not cut. -/
def expandWhole (s : State) (w : Word) : String :=
  w.foldl (fun text piece => text ++ match piece with
    | .text cs => String.ofList cs
    | .param _ name => s.value name) ""

/-! ## Commands -/

/-- Where the output of a stream goes after redirections: to a stream, or
nowhere. -/
def destination (rs : List Redirect) (stream : Nat) : Option Nat :=
  let routes := rs.foldl (fun (route : Nat → Option Nat) r n =>
    if n = r.stream then r.toStream.bind route else route n) some
  routes stream

/-- Writes to a stream under redirections. -/
def write (s : State) (rs : List Redirect) (stream : Nat) (os : List UInt8) : State :=
  match destination rs stream with
  | some 1 => { s with output := s.output ++ os }
  | some 2 => { s with errors := s.errors ++ os }
  | _ => s

/-- Reports a failure in a line and sets the status. -/
def complain (s : State) (rs : List Redirect) (line : Nat) (text : String) (status : Nat) : State :=
  let message := s.zero ++ ": " ++ toString line ++ ": " ++ text ++ "\n"
  { s.write rs 2 (octetsOf message.toList) with status := status }

/-- The script ends. -/
def finish (s : State) (status : ExitStatus) : State := { s with ended := some status }

/-- The number of a signal, by its number or its name. -/
def signal? (text : String) : Option Nat :=
  match text.toNat? with
  | some n => some n
  | none => (ExitStatus.signalNames.find? fun entry =>
      entry.2 == text || "SIG" ++ entry.2 == text).map Prod.fst

/-- Sends a signal to the shell itself. -/
def kill (s : State) (n : Nat) (target : String) : State :=
  if target ≠ processNumber then { s with status := 1 }
  else if (ExitStatus.signalNames.lookup n).isSome then s.finish (.signal n)
  else { s with status := if n ≤ 64 then 0 else 1 }

/-- The truth of a test. -/
def holds : List String → Bool
  | ["!", a] => a = ""
  | "!" :: more => !holds more
  | ["-n", a] => a ≠ ""
  | ["-z", a] => a = ""
  | [a] => a ≠ ""
  | [a, "=", b] => a = b
  | [a, "!=", b] => a ≠ b
  | [a, "-eq", b] => a.toInt? = b.toInt?
  | [a, "-ne", b] => a.toInt? ≠ b.toInt?
  | _ => false

/-- Runs a command by its words. -/
def perform (s : State) (line : Nat) (rs : List Redirect) : List String → State
  | [] => { s with status := 0 }
  | "true" :: _ | ":" :: _ => { s with status := 0 }
  | "false" :: _ => { s with status := 1 }
  | "echo" :: args => { s.write rs 1 (echo args) with status := 0 }
  | ["printf"] => s.complain rs line "printf: usage: printf format [arg ...]" 2
  | "printf" :: "--" :: format :: args | "printf" :: format :: args =>
    match printf? format args with
    | some p =>
      let s := p.complaints.foldl (fun s complaint =>
        s.complain rs line ("printf: " ++ complaint) 1) { s with status := 0 }
      s.write rs 1 p.octets
    | none => s.complain rs line "printf: invalid directive" 2
  | ["exit"] => s.finish (.code s.status)
  | "exit" :: n :: _ =>
    match n.toNat? with
    | some n => s.finish (.code (n % 256))
    | none => (s.complain rs line ("exit: Illegal number: " ++ n) 2).finish (.code 2)
  | "test" :: args => { s with status := if holds args then 0 else 1 }
  | "[" :: args => { s with status := if holds args.dropLast then 0 else 1 }
  | ["shift"] => { s with arguments := s.arguments.tail, status := 0 }
  | ["kill", target] => s.kill 15 target
  | ["kill", "-s", name, target] => match signal? name with
    | some n => s.kill n target
    | none => { s with status := 2 }
  | ["kill", option, target] => match signal? (option.drop 1).toString with
    | some n => s.kill n target
    | none => { s with status := 2 }
  | name :: _ => s.complain rs line (name ++ ": not found") 127

/-- Runs a command. -/
def runCommand (s : State) (c : Command) : State :=
  let words := c.words.flatMap s.expand
  let assigned := c.assignments.map fun a => (a.1, s.expandWhole a.2)
  let s := if words.isEmpty then { s with values := assigned.reverse ++ s.values } else s
  s.perform c.line c.redirects words

/-- Runs a command of a script, if it is connected so. -/
def runItem (s : State) (i : Item) : State :=
  let wanted := match i.connective with
    | .always => true
    | .afterSuccess => s.status = 0
    | .afterFailure => s.status ≠ 0
  if s.ended.isSome || !wanted then s
  else
    let s := s.runCommand i.command
    if i.negated ∧ s.ended.isNone then { s with status := if s.status = 0 then 1 else 0 } else s

/-- What a script has left when it has ended. -/
def result (s : State) : RunResult :=
  ⟨s.ended.getD (.code s.status), s.output, s.errors⟩

end State

/-- Runs a script under a name and with arguments. -/
def runScript (script zero : String) (arguments : List String) : RunResult :=
  let start : State := { zero, arguments }
  let s := Script.ofText script
  let last := s.lines.flatten.foldl State.runItem start
  match last.ended, s.fault with
  | none, some (line, fault) =>
    (last.complain [] line ("Syntax error: " ++ fault.message) 2).result
  | _, _ => last.result

/-- Runs the shell with arguments: behind `-c` stands a script with its name and
arguments.  Other scripts are files, whose text is looked up by their name. -/
def run (textOf : String → Except MachineFault String) : List String → RunResult
  | [] | ["-c"] => ⟨.code 0, [], []⟩
  | ["-c", script] => runScript script "sh" []
  | "-c" :: script :: zero :: arguments => runScript script zero arguments
  | name :: arguments => match textOf name with
    | .ok script => runScript script name arguments
    | .error _ => (State.complain { zero := "sh", arguments } [] 0 ("cannot open " ++ name) 2).result

end BindingSynthesis.Shell
