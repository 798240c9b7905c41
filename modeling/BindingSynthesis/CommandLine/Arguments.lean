import BindingSynthesis.Path
import BindingSynthesis.Text.Replace

/-!
# BindingSynthesis.CommandLine.Arguments

The arguments of the command.

1. An option takes a value, behind an equals sign or as the next argument; a
   next argument that starts with a dash, and is more than that dash, is no
   value.  The short form may also have its value right behind it.
2. Names of options are not abbreviated, and no option is given twice.
3. Behind `--` every argument stands for itself.
4. A path that is given must not be empty.
-/

namespace BindingSynthesis.CommandLine

/-- What the command is asked to do. -/
inductive Command where
  | help
  | version
  /-- Run the requests of a batch file; the bridge may be chosen here. -/
  | generate (config : Path) (metadataDirectory interpreter : Option Path)
  /-- Print the plan of one document; its library may be named here. -/
  | plan (metadata : Path) (library : Option String)
  deriving DecidableEq, Repr

/-- An option that takes a value. -/
structure OptionName where
  long : String
  short : Option Char := none
  deriving DecidableEq, Repr

/-- The values of options, each by its long name, and the other arguments. -/
structure Parsed where
  values : List (String × String) := []
  operands : List String := []
  deriving DecidableEq, Repr

/-- A value given to an option that has none yet. -/
def Parsed.give (p : Parsed) (name value : String) : Option Parsed :=
  match p.values.lookup name with
  | some _ => none
  | none => some { p with values := (name, value) :: p.values }

/-- The argument starts an option, or ends them all. -/
def isOption (argument : String) : Bool :=
  match argument.toList with
  | '-' :: _ :: _ => true
  | _ => false

/-- The text before the first equals sign, and the text behind it. -/
def splitAtEquals (cs : List Char) : List Char × Option (List Char) :=
  let name := cs.takeWhile (· != '=')
  (name, (cs.drop name.length).tail?)

/-- What the front of the arguments is. -/
inductive Front where
  /-- An option with its value. -/
  | attached (name value : String)
  /-- An option whose value is the next argument. -/
  | awaiting (name : String)
  | help
  | version
  /-- From here on every argument stands for itself. -/
  | terminator
  | operand
  | unknown
  deriving DecidableEq, Repr

/-- The option behind two dashes. -/
def longOption (options : List OptionName) (cs : List Char) : Front :=
  match splitAtEquals cs with
  | (name, value?) =>
    let name := String.ofList name
    if name = "help" ∧ value?.isNone then .help
    else if name = "version" ∧ value?.isNone then .version
    else match options.find? fun o => o.long == name, value? with
      | none, _ => .unknown
      | some o, some value => .attached o.long (String.ofList value)
      | some o, none => .awaiting o.long

/-- The option behind one dash. -/
def shortOption (options : List OptionName) (c : Char) (cs : List Char) : Front :=
  if c = 'h' then .help
  else if c = 'V' then .version
  else match options.find? fun o => o.short == some c, cs with
    | none, _ => .unknown
    | some o, [] => .awaiting o.long
    | some o, '=' :: value => .attached o.long (String.ofList value)
    | some o, value => .attached o.long (String.ofList value)

/-- What an argument is. -/
def front (options : List OptionName) (argument : String) : Front :=
  match argument.toList with
  | ['-', '-'] => .terminator
  | '-' :: '-' :: cs => longOption options cs
  | '-' :: c :: cs => shortOption options c cs
  | _ => .operand

/-- Goes through the arguments of a command; `none` if they are no usage of it,
and `some none` if they ask for help. -/
def parse (options : List OptionName) : Parsed → List String → Option (Option Parsed)
  | p, [] => some (some p)
  | p, argument :: more => match front options argument with
    | .help => some none
    | .version | .unknown => none
    | .terminator => some (some { p with operands := p.operands ++ more })
    | .operand => parse options { p with operands := p.operands ++ [argument] } more
    | .attached name value => do parse options (← p.give name value) more
    | .awaiting name => match more with
      | [] => none
      | value :: rest => if isOption value then none else do parse options (← p.give name value) rest

/-- A path that was given. -/
def pathOf? (text : String) : Option Path := if text = "" then none else some ⟨text⟩

/-- The path given to an option, if it was given: `none` if it is empty. -/
def pathOption? (p : Parsed) (name : String) : Option (Option Path) :=
  match p.values.lookup name with
  | none => some none
  | some text => (pathOf? text).map some

/-- The batch file, if no other is chosen. -/
def defaultConfig : Path := ⟨"wrapweld.toml"⟩

/-- The command that arguments behind `generate` ask for. -/
def generateOf? (p : Parsed) : Option Command := do
  let config ← pathOption? p "config"
  let metadataDirectory ← pathOption? p "metadata-dir"
  let interpreter ← pathOption? p "python"
  if p.operands ≠ [] ∨ (metadataDirectory.isSome ∧ interpreter.isSome) then none
  else pure (.generate (config.getD defaultConfig) metadataDirectory interpreter)

/-- The command that arguments behind `plan` ask for. -/
def planOf? (p : Parsed) : Option Command :=
  match p.operands with
  | [metadata] => (pathOf? metadata).map fun path => .plan path (p.values.lookup "library")
  | _ => none

/-- What the arguments ask for; `none` if they are no usage of the command. -/
def command? : List String → Option Command
  | [] => none
  | "generate" :: more => do
    match ← parse [⟨"config", some 'c'⟩, ⟨"metadata-dir", none⟩, ⟨"python", none⟩] {} more with
    | none => pure .help
    | some p => generateOf? p
  | "plan" :: more => do
    match ← parse [⟨"library", none⟩] {} more with
    | none => pure .help
    | some p => planOf? p
  | "help" :: _ => some .help
  | argument :: _ => match front [] argument with
    | .help => some .help
    | .version => some .version
    | _ => none

end BindingSynthesis.CommandLine
