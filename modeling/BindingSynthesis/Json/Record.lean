import BindingSynthesis.Json.Reader

/-!
# BindingSynthesis.Json.Record

Readers of typed values.

1. A record is written as an object, or as an array of its fields in the order
   of their declaration.
2. Members with unknown names are read over.  A field that is written twice is
   a mismatch, found when its name comes the second time; so is a missing field
   without a default, found when the object closes.
3. In an array, fields with a default may be missing at the end, and nothing
   may follow the last field.
4. A choice between records carries the name of the case in a member `kind`, or
   in the first element of an array; the whole value is read before its fields
   are looked at.  A choice between names is a string, or an object with the
   name as its only key.
-/

namespace BindingSynthesis.Json

/-! ## Scalars, lists and optional values -/

namespace Decoder

/-- A string. -/
def string : Decoder String
  | .string ⟨some s⟩ => .ok s
  | v => .error v.unwanted

/-- A truth value. -/
def bool : Decoder Bool
  | .bool b => .ok b
  | v => .error v.unwanted

/-- A natural number below `2 ^ 64`. -/
def natural : Decoder Nat
  | .number (.natural n) => .ok n
  | v => .error v.unwanted

/-- A value or `null`. -/
def option {α : Type} (d : Decoder α) : Decoder (Option α)
  | .null => .ok none
  | v => (d v).map some

/-- A string, or `null` for the empty one. -/
def nullableString : Decoder String
  | .null => .ok ""
  | v => string v

/-- The elements of an array, from first to last. -/
def each {α : Type} (d : Decoder α) : List Reading → Except Fault (List α)
  | [] => .ok []
  | v :: more => do
    let a ← d v
    let rest ← each d more
    pure (a :: rest)

/-- An array of values. -/
def list {α : Type} (d : Decoder α) : Decoder (List α)
  | .array _ items closing => do
    let as ← each d items
    passing closing.kept?
    pure as
  | v => .error v.unwanted

end Decoder

/-! ## Records -/

/-- The fields of a record, read one by one into a state. -/
structure Fields (α : Type) where
  State : Type
  start : State
  /-- Takes a member; `none` if no field has its name. -/
  member : State → String → Reading → Option (Except Fault State)
  /-- Takes the fields from the front of an array that ends so. -/
  items : State → List Reading → Closing → Except Fault (State × List Reading)
  /-- The record, once the object or array has closed. -/
  finish : State → Except Fault α

namespace Fields

/-- A field with these names, and its value where it is missing from an object
and from an array. -/
def single {α : Type} (names : List String) (d : Decoder α) (absent unlisted : Option α) : Fields α where
  State := Option α
  start := none
  member seen key v :=
    if key ∈ names then
      some (match seen with
        | some _ => .error .mismatched
        | none => (d v).map some)
    else none
  items _ vs closing := match vs with
    | v :: rest => (d v).map fun a => (some a, rest)
    | [] => match closing.kept? with
      | some f => .error f
      | none => match unlisted with
        | some a => .ok (some a, [])
        | none => .error .mismatched
  finish seen := match seen.or absent with
    | some a => .ok a
    | none => .error .mismatched

/-- A field that must be present. -/
def required {α : Type} (name : String) (d : Decoder α) : Fields α := single [name] d none none

/-- A field with a default. -/
def withDefault {α : Type} (name : String) (d : Decoder α) (a : α) : Fields α :=
  single [name] d (some a) (some a)

/-- A field that an object may omit and an array may not. -/
def optional {α : Type} (name : String) (d : Decoder α) : Fields (Option α) :=
  single [name] (.option d) (some none) none

/-- The fields of one record followed by those of another. -/
def both {α β : Type} (f : Fields α) (g : Fields β) : Fields (α × β) where
  State := f.State × g.State
  start := (f.start, g.start)
  member st key v := match f.member st.1 key v with
    | some r => some (r.map fun s => (s, st.2))
    | none => (g.member st.2 key v).map fun r => r.map fun s => (st.1, s)
  items st vs closing := do
    let (s, rest) ← f.items st.1 vs closing
    let (s', rest') ← g.items st.2 rest closing
    pure ((s, s'), rest')
  finish st := do
    let a ← f.finish st.1
    let b ← g.finish st.2
    pure (a, b)

/-- A record made from the fields. -/
def map {α β : Type} (make : α → β) (f : Fields α) : Fields β where
  State := f.State
  start := f.start
  member := f.member
  items := f.items
  finish st := (f.finish st).map make

/-- A record without fields. -/
def empty {α : Type} (a : α) : Fields α where
  State := Unit
  start := ()
  member _ _ _ := none
  items _ vs _ := .ok ((), vs)
  finish _ := .ok a

instance : Functor Fields := ⟨map, fun a f => map (fun _ => a) f⟩

instance : Pure Fields := ⟨empty⟩

instance : Seq Fields := ⟨fun f g => map (fun p => p.1 p.2) (both f (g ()))⟩

/-- Takes the members of an object in order. -/
def members {α : Type} (f : Fields α) : f.State → List (Quoted × Reading) → Except Fault f.State
  | st, [] => .ok st
  | st, (key, v) :: more => match key.text? with
    | none => .error .malformed
    | some name => match f.member st name v with
      | some (.ok st') => members f st' more
      | some (.error e) => .error e
      | none => do
        v.skip
        members f st more

/-- Reads a record. -/
def decode {α : Type} (f : Fields α) : Decoder α
  | .object _ ms closing => do
    let st ← members f f.start ms
    passing closing.kept?
    f.finish st
  | .array _ vs closing => do
    let (st, rest) ← f.items f.start vs closing
    if rest.isEmpty then
      passing closing.kept?
      f.finish st
    else .error .malformed
  | v => .error v.unwanted

/-- Reads a record from a format whose arrays may hold more than its fields. -/
def decodeLoosely {α : Type} (f : Fields α) : Decoder α
  | .array _ vs closing => do
    let (st, _) ← f.items f.start vs closing
    f.finish st
  | v => decode f v

end Fields

/-! ## Choices -/

/-- The entry of a list under a name. -/
def named {α : Type} (cases : List (String × α)) (name : String) : Except Fault α :=
  match cases.lookup name with
  | some a => .ok a
  | none => .error .mismatched

/-- The name of the case, the members but that one, in order. -/
def splitKind {α : Type} (cases : List (String × α)) :
    Option α → List (Quoted × Reading) → Except Fault (Option α × List (Quoted × Reading))
  | kind?, [] => .ok (kind?, [])
  | kind?, (key, v) :: more => match key.text? with
    | none => .error .malformed
    | some "kind" => match kind? with
      | some _ => .error .mismatched
      | none => do
        let a ← named cases (← Decoder.string v)
        splitKind cases (some a) more
    | some _ => do
      v.keep
      let (found, others) ← splitKind cases kind? more
      pure (found, (key, v) :: others)

/-- Reads one of several records, whose case a member `kind` names. -/
def Decoder.tagged {α : Type} (cases : List (String × Decoder α)) : Decoder α
  | .object true _ _ | .array true _ _ => .error .malformed
  | .object false ms closing => do
    let (kind?, others) ← splitKind cases none ms
    passing closing.kept?
    match kind? with
    | none => .error .mismatched
    | some d => (d (.object false others .closed)).mapError fun _ => .mismatched
  | .array false vs closing => match vs with
    | [] => .error (closing.kept?.getD .mismatched)
    | v :: rest => do
      let d ← named cases (← Decoder.string v)
      Reading.keepItems rest
      passing closing.kept?
      (d (.array false rest .closed)).mapError fun _ => .mismatched
  | v => .error v.unwanted

/-- A case of a choice between names: a bare name, or a name with a record. -/
inductive Case (α : Type) where
  | bare (a : α)
  | record (d : Decoder α)

/-- Reads what an object holds under the name of a case. -/
def Case.payload {α : Type} : Case α → Decoder α
  | .bare a, .null => .ok a
  | .bare _, v => .error v.unwanted
  | .record d, v => d v

/-- Reads a choice between names. -/
def Decoder.choice {α : Type} (cases : List (String × Case α)) : Decoder α
  | .string ⟨some name⟩ => do
    match ← named cases name with
    | .bare a => .ok a
    | .record _ => .error .mismatched
  | .string ⟨none⟩ => .error .malformed
  | .object _ ms closing => match ms with
    | [] => match closing with
      | .nameless f => .error f
      | c => .error (c.kept?.getD .malformed)
    | (key, v) :: more => match key.text? with
      | none => .error .malformed
      | some name => do
        let a ← (← named cases name).payload v
        if more.isEmpty then
          match closing with
          | .closed => .ok a
          | .broken b => .error b.kept
          | _ => .error .malformed
        else .error .malformed
  | .broken b => .error b.kept
  | _ => .error .malformed

end BindingSynthesis.Json
