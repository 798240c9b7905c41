/-!
# BindingSynthesis.Json.Reading

What a JSON text holds, as far as it can be read.

A text is read once, from left to right, and the first problem that a reader
meets is the one reported.  Which problem that is depends on what the reader
wants: one that wants a number stops at the opening bracket of an array, one
that skips the array goes on to its end.  A `Reading` therefore keeps the whole
text with the places where it breaks off, and each reader meets the problems in
the order of the text.

1. A reader that *keeps* a value needs its strings to be text and its numbers
   to be within the range of double precision; one that *skips* it does not.
2. Arrays and objects nested more than 127 levels deep are refused where they
   are kept.
-/

namespace BindingSynthesis.Json

/-- Why a text cannot be read as what is wanted. -/
inductive Fault where
  /-- The text is not JSON. -/
  | malformed
  /-- The text is JSON so far, but not what is wanted. -/
  | mismatched
  /-- The text ends too early. -/
  | truncated
  deriving DecidableEq, Repr

/-- The name of a fault in messages. -/
def Fault.message : Fault → String
  | .malformed => "<json:syntax>"
  | .mismatched => "<json:data>"
  | .truncated => "<json:eof>"

/-- A place where the text breaks off, as a reader that keeps the value there
sees it and as one that skips it does. -/
structure Break where
  kept : Fault
  skipped : Fault
  deriving DecidableEq, Repr

/-- A break that looks the same to every reader. -/
def Break.always (f : Fault) : Break := ⟨f, f⟩

/-- A complete number. -/
inductive Number where
  /-- A natural number below `2 ^ 64`. -/
  | natural (n : Nat)
  /-- A number with a sign, a fraction or an exponent, or a larger one. -/
  | other
  /-- A number beyond the range of double precision. -/
  | excessive
  deriving DecidableEq, Repr

/-- A complete string: its text, unless an unpaired surrogate stands in it. -/
structure Quoted where
  text? : Option String
  deriving DecidableEq, Repr

/-- How an array or object ends. -/
inductive Closing where
  | closed
  /-- The text breaks off where a comma or the closing bracket should stand. -/
  | broken (b : Break)
  /-- Something else than a string stands first in an object; a reader that
  wants the name of a case there sees the given fault. -/
  | nameless (asName : Fault)
  /-- After a comma no member follows. -/
  | afterComma (b : Break)
  deriving DecidableEq, Repr

/-- What a JSON text holds, as far as it can be read.  Arrays and objects say
whether they lie too deep to be kept. -/
inductive Reading where
  | null
  | bool (b : Bool)
  | number (n : Number)
  | string (s : Quoted)
  | array (deep : Bool) (items : List Reading) (closing : Closing)
  | object (deep : Bool) (members : List (Quoted × Reading)) (closing : Closing)
  /-- The text breaks off before the value or inside of a string. -/
  | broken (b : Break)
  /-- The text breaks off inside of a number or a word, or what stands here starts
  no value. -/
  | cut (b : Break)

/-- The fault at the end of an array or object, for a reader that keeps it. -/
def Closing.kept? : Closing → Option Fault
  | .closed => none
  | .broken b | .afterComma b => some b.kept
  | .nameless _ => some .malformed

/-- The fault at the end of an array or object, for a reader that skips it. -/
def Closing.skipped? : Closing → Option Fault
  | .closed => none
  | .broken b | .afterComma b => some b.skipped
  | .nameless _ => some .malformed

/-- Goes on unless there is a fault. -/
def passing : Option Fault → Except Fault Unit
  | none => .ok ()
  | some f => .error f

namespace Reading

/-- The fault that a reader meets who wants another kind of value: a scalar is
read to its end first, an array or object is not. -/
def unwanted : Reading → Fault
  | .null | .bool _ | .array .. | .object .. => .mismatched
  | .number .excessive => .malformed
  | .number _ => .mismatched
  | .string ⟨none⟩ => .malformed
  | .string ⟨some _⟩ => .mismatched
  | .broken b | .cut b => b.kept

/-! ## Skipping -/

mutual

/-- Reads over a value that nobody wants. -/
def skip : Reading → Except Fault Unit
  | .null | .bool _ | .number _ | .string _ => .ok ()
  | .array _ items closing => do
    skipItems items
    passing closing.skipped?
  | .object _ members closing => do
    skipMembers members
    passing closing.skipped?
  | .broken b | .cut b => .error b.skipped
termination_by structural v => v

/-- Reads over the elements of an array. -/
def skipItems : List Reading → Except Fault Unit
  | [] => .ok ()
  | v :: more => do
    skip v
    skipItems more
termination_by structural vs => vs

/-- Reads over the members of an object. -/
def skipMembers : List (Quoted × Reading) → Except Fault Unit
  | [] => .ok ()
  | m :: more => do
    skipMember m
    skipMembers more
termination_by structural ms => ms

/-- Reads over a member of an object. -/
def skipMember : Quoted × Reading → Except Fault Unit
  | (_, v) => skip v
termination_by structural m => m

end

/-! ## Keeping -/

mutual

/-- Reads a value that is kept for later, whatever it is. -/
def keep : Reading → Except Fault Unit
  | .null | .bool _ | .number (.natural _) | .number .other | .string ⟨some _⟩ => .ok ()
  | .number .excessive | .string ⟨none⟩ => .error .malformed
  | .array true _ _ | .object true _ _ => .error .malformed
  | .array false items closing => do
    keepItems items
    passing closing.kept?
  | .object false members closing => do
    keepMembers members
    passing closing.kept?
  | .broken b | .cut b => .error b.kept
termination_by structural v => v

/-- Reads the elements of an array that is kept. -/
def keepItems : List Reading → Except Fault Unit
  | [] => .ok ()
  | v :: more => do
    keep v
    keepItems more
termination_by structural vs => vs

/-- Reads the members of an object that is kept. -/
def keepMembers : List (Quoted × Reading) → Except Fault Unit
  | [] => .ok ()
  | m :: more => do
    keepMember m
    keepMembers more
termination_by structural ms => ms

/-- Reads a member of an object that is kept. -/
def keepMember : Quoted × Reading → Except Fault Unit
  | (⟨some _⟩, v) => keep v
  | (⟨none⟩, _) => .error .malformed
termination_by structural m => m

end

end Reading

end BindingSynthesis.Json
