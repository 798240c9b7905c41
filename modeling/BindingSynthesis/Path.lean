import BindingSynthesis.Json.Record
import BindingSynthesis.Text.Lines

/-!
# BindingSynthesis.Path

Paths of files, as they are written.

1. A path is absolute if it starts with a slash.
2. Joining an absolute path replaces the first path.  Joining a relative one
   appends it behind a slash, unless the first path is empty or ends with one;
   nothing else about the two texts changes.
3. The parent of a path leaves out its last component.  Empty components and
   dots do not count as components, except for a dot at the very start.
-/

namespace BindingSynthesis

/-- A written path. -/
structure Path where
  text : String
  deriving DecidableEq, Repr

namespace Path

/-- Reads a path from a string. -/
def decode : Json.Decoder Path := fun v => (Json.Decoder.string v).map Path.mk

/-- The path starts at the root. -/
def isAbsolute (p : Path) : Bool := p.text.toList.head? == some '/'

/-- The path `q` as seen from `p`. -/
def join (p q : Path) : Path :=
  if q.isAbsolute then q
  else match p.text.toList.getLast? with
    | none => q
    | some '/' => ⟨p.text ++ q.text⟩
    | some _ => ⟨p.text ++ "/" ++ q.text⟩

/-- Several paths joined from left to right. -/
def joinAll (p : Path) (segments : List String) : Path :=
  segments.foldl (fun dir segment => dir.join ⟨segment⟩) p

/-- The piece between two slashes is no component. -/
def isVacant (piece : List Char) : Bool := piece = [] || piece = ['.']

/-- The pieces from the end on, without those that are no components. -/
def trimEnd (pieces : List (List Char)) : List (List Char) :=
  (pieces.reverse.dropWhile isVacant).reverse

/-- The pieces with slashes between them. -/
def ofPieces (pieces : List (List Char)) : String := Text.joined "/" (pieces.map String.ofList)

/-- What stands in front of the components: a slash, or a dot on its own. -/
def split (p : Path) : String × List Char :=
  match p.text.toList with
  | '/' :: body => ("/", body)
  | ['.'] => (".", [])
  | '.' :: '/' :: body => (".", '/' :: body)
  | body => ("", body)

/-- The path without its last component, if it has one. -/
def parent? (p : Path) : Option Path :=
  let (front, body) := p.split
  match trimEnd (Text.segments '/' body) with
  | [] => if front = "." then some ⟨""⟩ else none
  | pieces => some ⟨front ++ ofPieces (trimEnd pieces.dropLast)⟩

@[simp] theorem joinAll_nil (p : Path) : p.joinAll [] = p := rfl

@[simp] theorem joinAll_cons (p : Path) (segment : String) (more : List String) :
    p.joinAll (segment :: more) = (p.join ⟨segment⟩).joinAll more := rfl

theorem join_of_isAbsolute {p q : Path} (h : q.isAbsolute = true) : p.join q = q := by
  rw [join, if_pos h]

end Path

end BindingSynthesis
