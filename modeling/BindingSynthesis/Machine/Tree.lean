import BindingSynthesis.Machine.Basic

/-!
# BindingSynthesis.Machine.Tree

A tree of files and directories in memory, without links.

1. A place is the list of names on the way to it.  A path leads from a place to
   a place, name by name, and each name but the last must be that of a
   directory.
2. A name has at most 255 octets, a path fewer than 4096.
3. Making a directory with those that it lies in tries the path itself first;
   only if that lies nowhere does it turn to the parent.
-/

namespace BindingSynthesis

/-- A place: the names on the way to it, the last one first.  The root is the
empty list. -/
abbrev Place := List String

/-- What stands at a place. -/
inductive Node where
  | directory
  | file (octets : List UInt8) (executable : Bool)
  deriving DecidableEq, Repr

/-- A tree of files: what stands at each place but the root. -/
structure Tree where
  nodes : List (Place × Node)
  deriving DecidableEq, Repr

namespace Tree

/-- The tree with nothing but the root. -/
def empty : Tree := ⟨[]⟩

/-- What stands at a place. -/
def node? (t : Tree) (place : Place) : Option Node :=
  if place = [] then some .directory else t.nodes.lookup place

/-- The tree with something else at a place. -/
def put (t : Tree) (place : Place) (n : Node) : Tree :=
  ⟨(place, n) :: t.nodes.filter fun entry => entry.1 != place⟩

@[simp] theorem node?_root (t : Tree) : t.node? [] = some .directory := rfl

theorem lookup_filter_ne {place other : Place} (h : other ≠ place) (ns : List (Place × Node)) :
    (ns.filter fun entry => entry.1 != place).lookup other = ns.lookup other := by
  induction ns with
  | nil => rfl
  | cons entry more ih =>
    obtain ⟨q, n⟩ := entry
    by_cases hq : q = place
    · subst hq
      have hne : (other == q) = false := by simpa using h
      simp [List.lookup_cons, hne, ih]
    · simp [List.lookup_cons, hq, ih]

theorem node?_put {place : Place} (hp : place ≠ []) (t : Tree) (n : Node) (other : Place) :
    (t.put place n).node? other = if other = place then some n else t.node? other := by
  by_cases h : other = place
  · subst h
    simp [node?, put, hp]
  · have hne : (other == place) = false := by simpa using h
    simp [node?, put, List.lookup_cons, hne, h, lookup_filter_ne h]

/-! ## Walking -/

/-- The place that a name leads to. -/
def step (t : Tree) (place : Place) (name : String) : Except MachineFault Place :=
  match t.node? place with
  | none => .error .notFound
  | some (.file ..) => .error .notDirectory
  | some .directory =>
    if name = "" ∨ name = "." then .ok place
    else if name = ".." then .ok place.tail
    else if 255 < name.utf8ByteSize then .error .nameTooLong
    else .ok (name :: place)

/-- The place that names lead to.  Nothing need stand at the last of them. -/
def walk (t : Tree) : Place → List String → Except MachineFault Place
  | place, [] => .ok place
  | place, name :: more => match t.step place name with
    | .ok next => walk t next more
    | .error fault => .error fault

/-- The place that a path leads to. -/
def resolve (t : Tree) (here : Place) (p : Path) : Except MachineFault Place :=
  if p.text.toList.contains '\x00' then .error .nulInPath
  else if p.text = "" then .error .notFound
  else if 4096 ≤ p.text.utf8ByteSize then .error .nameTooLong
  else t.walk (if p.isAbsolute then [] else here) (Text.segmentsOf '/' p.text)

/-- What stands where a path leads. -/
def find (t : Tree) (here : Place) (p : Path) : Except MachineFault Node :=
  match t.resolve here p with
  | .error fault => .error fault
  | .ok place => match t.node? place with
    | none => .error .notFound
    | some n => .ok n

/-! ## Files -/

/-- The octets of a file. -/
def read (t : Tree) (here : Place) (p : Path) : Except MachineFault (List UInt8) :=
  match t.find here p with
  | .error fault => .error fault
  | .ok .directory => .error .isDirectory
  | .ok (.file octets _) => .ok octets

/-- Replaces the octets of a file, or makes one that is no program. -/
def write (t : Tree) (here : Place) (p : Path) (octets : List UInt8) : Except MachineFault Unit × Tree :=
  match t.resolve here p with
  | .error fault => (.error fault, t)
  | .ok place => match t.node? place with
    | some .directory => (.error .isDirectory, t)
    | some (.file _ executable) => (.ok (), t.put place (.file octets executable))
    | none => (.ok (), t.put place (.file octets false))

/-! ## Directories -/

/-- The path leads to a directory. -/
def isDirectory (t : Tree) (here : Place) (p : Path) : Bool := t.find here p matches .ok .directory

/-- The path without slashes at its end. -/
def withoutEndSlashes (p : Path) : Path :=
  match p.text.toList.reverse.dropWhile (· == '/') with
  | [] => p
  | cs => ⟨String.ofList cs.reverse⟩

/-- Makes a directory. -/
def createDirectory (t : Tree) (here : Place) (p : Path) : Except MachineFault Unit × Tree :=
  match t.resolve here (withoutEndSlashes p) with
  | .error fault => (.error fault, t)
  | .ok place => match t.node? place with
    | some _ => (.error .alreadyExists, t)
    | none => (.ok (), t.put place .directory)

/-- A path and those that it lies in, from the longest to the shortest; the
empty path is left out.  No path has more of them than characters. -/
def lineage (p : Path) : List Path :=
  let rec upwards : Nat → Path → List Path
    | 0, _ => []
    | fuel + 1, p =>
      if p.text = "" then [] else p :: match p.parent? with
        | none => []
        | some parent => upwards fuel parent
  upwards (p.text.length + 1) p

/-- Makes the first directory of a lineage, where necessary after the others. -/
def createLineage (t : Tree) (here : Place) : List Path → Except MachineFault Unit × Tree
  | [] => (.ok (), t)
  | p :: above =>
    let settle (fault : MachineFault) (t : Tree) : Except MachineFault Unit × Tree :=
      if t.isDirectory here p then (.ok (), t) else (.error fault, t)
    match t.createDirectory here p with
    | (.ok (), t') => (.ok (), t')
    | (.error .notFound, _) => match createLineage t here above with
      | (.error fault, t') => (.error fault, t')
      | (.ok (), t') => match t'.createDirectory here p with
        | (.ok (), t'') => (.ok (), t'')
        | (.error fault, _) => settle fault t'
    | (.error fault, _) => settle fault t

/-- Makes a directory, with those that it lies in. -/
def createDirectories (t : Tree) (here : Place) (p : Path) : Except MachineFault Unit × Tree :=
  t.createLineage here (lineage p)

end Tree

end BindingSynthesis
