import BindingSynthesis.Machine.Tree
import BindingSynthesis.Shell.Run
import BindingSynthesis.Text.Blank
import BindingSynthesis.Text.Utf8

/-!
# BindingSynthesis.Machine.InMemory

A machine whose files are a tree in memory and whose programs are shell scripts
and a few that need no file.

1. Paths that are not absolute start at the current directory.
2. A program is an executable file: the shell, one of the few others, or a
   script whose first line names its interpreter.
3. A program without a slash in its name is looked up on the search path.
-/

namespace BindingSynthesis

/-- The state of a machine in memory. -/
structure InMemory where
  tree : Tree
  /-- The current directory. -/
  here : Place
  searchPath : List Path

namespace InMemory

/-- Where the shell stands. -/
def shell : Place := ["sh", "bin"]

/-- The programs besides the shell, with what they leave for their arguments. -/
def programs : List (Place × (List String → RunResult)) := [
  (["true", "bin"], fun _ => ⟨.code 0, [], []⟩),
  (["false", "bin"], fun _ => ⟨.code 1, [], []⟩),
  (["echo", "bin"], fun arguments =>
    ⟨.code 0, Text.Utf8.encode (Text.joined " " arguments ++ "\n"), []⟩)]

/-- The tree with the programs and an empty device. -/
def systemTree : Tree :=
  ⟨[(["bin"], .directory), (shell, .file [] true), (["dev"], .directory),
    (["null", "dev"], .file [] false)] ++ programs.map fun entry => (entry.1, .file [] true)⟩

/-- The text of a file. -/
def readText (s : InMemory) (p : Path) : Except MachineFault String :=
  match s.tree.read s.here p with
  | .error fault => .error fault
  | .ok octets => match Text.Utf8.decode? octets with
    | none => .error .notText
    | some text => .ok text

/-- Something stands at a path. -/
def exists? (s : InMemory) (p : Path) : Bool := (s.tree.find s.here p).toOption.isSome

/-- Changes the tree. -/
def onTree {α : Type} (f : Tree → Place → α × Tree) : StateM InMemory α := fun s =>
  let (a, tree) := f s.tree s.here
  (a, { s with tree })

/-! ## Programs -/

/-- A path leads to a program. -/
def isProgram (s : InMemory) (p : Path) : Bool :=
  match s.tree.find s.here p with
  | .ok (.file _ executable) => executable
  | _ => false

/-- The entries of the search path; an empty one has a single empty entry. -/
def searchEntries (s : InMemory) : List Path :=
  if s.searchPath.isEmpty then [⟨""⟩] else s.searchPath

/-- The first program of this name on the search path. -/
def findProgram (s : InMemory) (name : String) : Option Path :=
  (s.searchEntries.map fun entry => entry.join ⟨name⟩).find? s.isProgram

/-- The interpreter in the first line of a script, with its arguments. -/
def interpreterLine? (octets : List UInt8) : Option (List String) :=
  match Text.Utf8.decodeLossy octets with
  | '#' :: '!' :: cs =>
    let line := Text.trimChars (cs.takeWhile (· != '\n'))
    let name := line.takeWhile fun c => c != ' ' && c != '\t'
    let argument := Text.trimChars (line.drop name.length)
    if name.isEmpty then none
    else some (String.ofList name :: if argument.isEmpty then [] else [String.ofList argument])
  | _ => none

/-- Runs the program at a path.  A script runs by its interpreter, which may be
a script again, up to so many times. -/
def runAt (s : InMemory) : Nat → Path → List String → Except MachineFault RunResult
  | 0, _, _ => .error .notProgram
  | depth + 1, p, arguments =>
    match s.tree.resolve s.here p with
    | .error fault => .error fault
    | .ok place => match s.tree.node? place with
      | none => .error .notFound
      | some .directory | some (.file _ false) => .error .permissionDenied
      | some (.file octets true) =>
        if place = shell then .ok (Shell.run (fun name => s.readText ⟨name⟩) arguments)
        else match programs.lookup place, interpreterLine? octets with
          | some program, _ => .ok (program arguments)
          | none, some (interpreter :: more) =>
            s.runAt depth ⟨interpreter⟩ (more ++ p.text :: arguments)
          | none, _ => .error .notProgram

/-- Runs the first program that can be run; one that lies nowhere is passed
over, and so is one that may not be run, as long as there are others. -/
def runFirst (s : InMemory) (arguments : List String) (refused : Bool) :
    List Path → Except MachineFault RunResult
  | [] => .error (if refused then .permissionDenied else .notFound)
  | p :: more => match s.runAt 5 p arguments with
    | .error .notFound | .error .notDirectory => s.runFirst arguments refused more
    | .error .permissionDenied => s.runFirst arguments true more
    | result => result

/-- Runs a program, which is looked up on the search path unless its name has a
slash. -/
def run (s : InMemory) (program : Path) (arguments : List String) : Except MachineFault RunResult :=
  if (program.text :: arguments).any fun a => a.toList.contains '\x00' then .error .nulInArgument
  else if program.text = "" then .error .notFound
  else if program.text.toList.contains '/' then s.runAt 5 program arguments
  else s.runFirst arguments false (s.searchEntries.map fun entry => entry.join program)

/-- The capabilities of the machine. -/
def machine : Machine (StateM InMemory) where
  readText p := fun s => (s.readText p, s)
  exists? p := fun s => (s.exists? p, s)
  createDirectories p := onTree fun t here => t.createDirectories here p
  writeText p text := onTree fun t here => t.write here p (Text.Utf8.encode text)
  run program arguments := fun s => (s.run program arguments, s)
  findProgram name := fun s => (s.findProgram name, s)

end InMemory

end BindingSynthesis
