import BindingSynthesis.Json.Token

/-!
# BindingSynthesis.Json.Reader

From the tokens of a JSON text to its reading.

1. A value takes its tokens from the front of the list and leaves the rest; a
   value that breaks off leaves nothing.
2. After the comma of an array an element must follow, so a missing one is an
   element that breaks off.  After the comma of an object a member must follow,
   and the closing of the object says so when none does.
3. A document is one value, and nothing but white space may follow it.
-/

namespace BindingSynthesis.Json

/-- Values at this level of nesting and beyond are too deep to be kept. -/
def nestingLimit : Nat := 127

/-- The fault that a reader meets who wants the name of a case where this token
stands. -/
def Token.asName : Token → Fault
  | .beginArray | .beginObject => .mismatched
  | .word v => v.unwanted
  | .number n => (Reading.number n).unwanted
  | .string s => (Reading.string s).unwanted
  | .brokenString b | .broken b => b.kept
  | .endArray | .endObject | .colon | .comma => .malformed

/-- What closes a list of values once something else than a comma follows. -/
def closeWith (isEnd : Token → Bool) : List Token → Closing × List Token
  | [] => (.broken (.always .truncated), [])
  | t :: rest => if isEnd t then (.closed, rest) else (.broken (.always .malformed), [])

def Token.isEndArray : Token → Bool
  | .endArray => true
  | _ => false

def Token.isEndObject : Token → Bool
  | .endObject => true
  | _ => false

/-- What stands where a member of an object should start and does not. -/
def memberless : List Token → Break
  | [] => .always .truncated
  | .brokenString b :: _ => b
  | _ :: _ => .always .malformed

mutual

/-- The value at the front of the tokens, at a level of nesting. -/
def readValue : Nat → Nat → List Token → Reading × List Token
  | 0, _, _ => (.broken (.always .truncated), [])
  | _ + 1, _, [] => (.broken (.always .truncated), [])
  | fuel + 1, level, t :: rest => match t with
    | .word v => (v, rest)
    | .number n => (.number n, rest)
    | .string s => (.string s, rest)
    | .brokenString b => (.broken b, [])
    | .broken b => (.cut b, [])
    | .endArray | .endObject | .colon | .comma => (.broken (.always .malformed), [])
    | .beginArray =>
      let deep := decide (nestingLimit ≤ level)
      match rest with
      | [] => (.array deep [] (.broken (.always .truncated)), [])
      | .endArray :: rest' => (.array deep [] .closed, rest')
      | _ =>
        let (items, closing, rest') := readItems fuel (level + 1) rest
        (.array deep items closing, rest')
    | .beginObject =>
      let deep := decide (nestingLimit ≤ level)
      match rest with
      | [] => (.object deep [] (.broken (.always .truncated)), [])
      | .endObject :: rest' => (.object deep [] .closed, rest')
      | .string _ :: _ =>
        let (members, closing, rest') := readMembers fuel (level + 1) rest
        (.object deep members closing, rest')
      | .brokenString b :: _ => (.object deep [] (.broken b), [])
      | other :: _ => (.object deep [] (.nameless other.asName), [])

/-- The elements of an array, of which at least one is expected, and how it
ends. -/
def readItems : Nat → Nat → List Token → List Reading × Closing × List Token
  | 0, _, _ => ([], .broken (.always .truncated), [])
  | fuel + 1, level, ts =>
    let (v, rest) := readValue fuel level ts
    match rest with
    | .comma :: rest' =>
      let (items, closing, rest'') := readItems fuel level rest'
      (v :: items, closing, rest'')
    | _ => ([v], closeWith Token.isEndArray rest)

/-- The members of an object, of which at least one is expected, and how it
ends. -/
def readMembers : Nat → Nat → List Token → List (Quoted × Reading) × Closing × List Token
  | fuel + 1, level, .string key :: .colon :: ts =>
    let (v, rest) := readValue fuel level ts
    match rest with
    | .comma :: rest' =>
      let (members, closing, rest'') := readMembers fuel level rest'
      ((key, v) :: members, closing, rest'')
    | _ => ([(key, v)], closeWith Token.isEndObject rest)
  | _ + 1, _, .string key :: rest =>
    ([(key, .broken (.always (if rest.isEmpty then .truncated else .malformed)))], .closed, [])
  | _, _, ts => ([], .afterComma (memberless ts), [])

end

/-- The reading of a text, and whether something follows its value.  Each call
takes a token or leaves one to the next call, so twice their number suffices. -/
def read (text : String) : Reading × Bool :=
  let ts := tokens text.toList
  let (v, rest) := readValue (2 * ts.length + 1) 0 ts
  (v, !rest.isEmpty)

/-- A reader of values. -/
abbrev Decoder (α : Type) := Reading → Except Fault α

/-- Reads a document: its value first, then the end of the text. -/
def decode {α : Type} (decoder : Decoder α) (text : String) : Except Fault α :=
  let (v, followed) := read text
  match decoder v with
  | .error f => .error f
  | .ok a => if followed then .error .malformed else .ok a

end BindingSynthesis.Json
