import BindingSynthesis.Json.Record
import BindingSynthesis.Proofs.JsonText

/-!
# BindingSynthesis.Proofs.JsonRecords

Typed values are read back from their written form.

A record is put together from its fields, and so is what it reads: when its
members stand in the order of the fields and every member belongs to one field
only, each field takes its own (`Fields.Reads.seq`).  Lists, tagged records and
choices between names follow from what their parts read.
-/

namespace BindingSynthesis.Json

/-! ## scalars and lists -/

namespace Decoder

/-- A written string decodes to itself at every depth. -/
theorem string_readingAt (level : Nat) (s : String) :
    Decoder.string (readingAt level (.string s)) = .ok s := rfl

/-- So does a truth value. -/
theorem bool_readingAt (level : Nat) (b : Bool) :
    Decoder.bool (readingAt level (.bool b)) = .ok b := rfl

/-- Only the numbers below `2 ^ 64` are read back. -/
theorem natural_readingAt (level : Nat) {n : Nat} (h : n < UInt64.size) :
    Decoder.natural (readingAt level (.number n)) = .ok n := by
  rw [readingAt, Number.ofParts_digits h, natural]

/-- A list decodes item by item when each of its items does. -/
theorem each_itemsAt {α : Type} {d : Decoder α} {write : α → Json} {level : Nat} {as : List α}
    (h : ∀ a ∈ as, d (readingAt level (write a)) = .ok a) :
    each d (itemsAt level (as.map write)) = .ok as := by
  induction as with
  | nil => rfl
  | cons a as ih =>
      rw [List.forall_mem_cons] at h
      rw [List.map_cons, itemsAt, each, h.1, ih h.2]
      rfl

/-- The array around the items is one level further out. -/
theorem list_readingAt {α : Type} {d : Decoder α} {write : α → Json} {level : Nat} {as : List α}
    (h : ∀ a ∈ as, d (readingAt (level + 1) (write a)) = .ok a) :
    Decoder.list d (readingAt level (.array (as.map write))) = .ok as := by
  rw [readingAt, Decoder.list, each_itemsAt h]
  rfl

end Decoder

/-! ## records -/

namespace Fields

variable {α β : Type}

/-- No field has this name. -/
def Ignores (f : Fields α) (name : String) : Prop := ∀ st v, f.member st name v = none

/-- A field passes by every key that is not one of its names. -/
@[simp] theorem ignores_single {names : List String} {key : String} {d : Decoder α}
    {absent unlisted : Option α} : (single names d absent unlisted).Ignores key ↔ key ∉ names := by
  simp only [Ignores, single, ite_eq_right_iff, reduceCtorEq, imp_false]
  exact ⟨fun h => h none .null, fun h _ _ => h⟩

@[simp] theorem ignores_required {name key : String} {d : Decoder α} :
    (required name d).Ignores key ↔ key ≠ name := by
  rw [required, ignores_single, List.mem_singleton]

@[simp] theorem ignores_withDefault {name key : String} {d : Decoder α} {a : α} :
    (withDefault name d a).Ignores key ↔ key ≠ name := by
  rw [withDefault, ignores_single, List.mem_singleton]

/-- What is made of a field afterwards does not change the keys it passes by. -/
@[simp] theorem ignores_map {make : α → β} {f : Fields α} {name : String} :
    (make <$> f).Ignores name ↔ f.Ignores name := Iff.rfl

/-- Two fields side by side pass by what both pass by. -/
@[simp] theorem ignores_seq {f : Fields (α → β)} {g : Fields α} {name : String} :
    (f <*> g).Ignores name ↔ f.Ignores name ∧ g.Ignores name := by
  have hmember (s : f.State) (t : g.State) (v : Reading) :
      (f <*> g).member (s, t) name v = none ↔
        f.member s name v = none ∧ g.member t name v = none := by
    change (both f g).member (s, t) name v = none ↔ _
    dsimp only [both]
    cases f.member s name v <;> simp
  exact ⟨fun h => ⟨fun s v => ((hmember s g.start v).mp (h (s, g.start) v)).1,
      fun t v => ((hmember f.start t v).mp (h (f.start, t) v)).2⟩,
    fun h st v => (hmember st.1 st.2 v).mpr ⟨h.1 st.1 v, h.2 st.2 v⟩⟩

/-- The fields take all of these members, one after the other. -/
inductive Takes (f : Fields α) : f.State → List (Quoted × Reading) → f.State → Prop
  | nil (st : f.State) : f.Takes st [] st
  | cons {st st' st'' : f.State} {name : String} {v : Reading} {more : List (Quoted × Reading)}
    (hmember : f.member st name v = some (.ok st')) (hmore : f.Takes st' more st'') :
    f.Takes st ((⟨some name⟩, v) :: more) st''

/-- Members are taken one after the other, so taking composes over lists of them. -/
theorem Takes.append {f : Fields α} {st st' st'' : f.State} {ms ns : List (Quoted × Reading)}
    (h : f.Takes st ms st') (h' : f.Takes st' ns st'') : f.Takes st (ms ++ ns) st'' := by
  induction h with
  | nil st => exact h'
  | cons hmember _ ih => exact .cons hmember (ih h')

/-- Taking all members is what the object decoder does first. -/
theorem members_of_takes {f : Fields α} {st st' : f.State} {ms : List (Quoted × Reading)}
    (h : f.Takes st ms st') : f.members st ms = .ok st' := by
  induction h with
  | nil st => rfl
  | cons hmember _ ih =>
      rw [members]
      simp only [hmember, ih]

/-- The state of a mapped decoder is the state of the decoder. -/
theorem Takes.map {f : Fields α} {st st' : f.State} {ms : List (Quoted × Reading)} (make : α → β)
    (h : f.Takes st ms st') : (make <$> f).Takes st ms st' := by
  induction h with
  | nil st => exact .nil _
  | cons hmember _ ih => exact .cons hmember ih

/-- Members for the left decoder leave the state of the right one alone. -/
theorem Takes.both_left {f : Fields α} {g : Fields β} {s s' : f.State}
    {ms : List (Quoted × Reading)} (t : g.State) (h : f.Takes s ms s') :
    (both f g).Takes (s, t) ms (s', t) := by
  induction h with
  | nil s => exact .nil _
  | cons hmember _ ih => exact .cons (by simp only [both, hmember]; rfl) ih

/-- For the right decoder this needs that the left one passes the keys by. -/
theorem Takes.both_right {f : Fields α} {g : Fields β} {t t' : g.State}
    {ms : List (Quoted × Reading)} (s : f.State) (h : g.Takes t ms t')
    (hf : ∀ m ∈ ms, ∀ name ∈ m.1.text?, f.Ignores name) : (both f g).Takes (s, t) ms (s, t') := by
  induction h with
  | nil s => exact .nil _
  | cons hmember _ ih =>
      rw [List.forall_mem_cons] at hf
      refine .cons ?_ (ih hf.2)
      have hignored := hf.1 _ rfl s
      simp only [both, hignored, hmember]
      rfl

/-- The fields take all of these members and make `a` of them. -/
def Reads (f : Fields α) (ms : List (Quoted × Reading)) (a : α) : Prop :=
  ∃ st, f.Takes f.start ms st ∧ f.finish st = .ok a

/-- A field takes a member with one of its names. -/
theorem Reads.single {names : List String} {name : String} {d : Decoder α}
    {absent unlisted : Option α} {v : Reading} {a : α} (hname : name ∈ names) (h : d v = .ok a) :
    (single names d absent unlisted).Reads [(⟨some name⟩, v)] a := by
  have hmember : (Fields.single names d absent unlisted).member none name v =
      some (.ok (some a)) := by
    simp only [Fields.single, hname, if_true, h]
    rfl
  exact ⟨some a, .cons hmember (.nil _), rfl⟩

/-- A required field reads the member of its name. -/
theorem Reads.required {d : Decoder α} {v : Reading} {a : α} (name : String) (h : d v = .ok a) :
    (required name d).Reads [(⟨some name⟩, v)] a := .single List.mem_cons_self h

/-- A field with a default reads a member that is there as a required one does. -/
theorem Reads.withDefault {d : Decoder α} {v : Reading} {a b : α} (name : String)
    (h : d v = .ok a) : (withDefault name d b).Reads [(⟨some name⟩, v)] a :=
  .single List.mem_cons_self h

/-- A field that is missing has its default. -/
theorem Reads.absent (name : String) (d : Decoder α) (a : α) :
    (Fields.withDefault name d a).Reads [] a := ⟨none, .nil _, rfl⟩

/-- A mapped decoder reads the same members and maps the result. -/
theorem Reads.map {f : Fields α} {ms : List (Quoted × Reading)} {a : α} (make : α → β)
    (h : f.Reads ms a) : (make <$> f).Reads ms (make a) := by
  obtain ⟨st, htakes, hfinish⟩ := h
  refine ⟨st, htakes.map make, ?_⟩
  change (f.finish st).map make = _
  rw [hfinish]
  rfl

/-- **Each of two records takes its own members**, if the first has no field with
a name that occurs among those of the second. -/
theorem Reads.seq {f : Fields (α → β)} {g : Fields α} {ms ns : List (Quoted × Reading)}
    {make : α → β} {a : α} (hf : f.Reads ms make) (hg : g.Reads ns a)
    (hother : ∀ m ∈ ns, ∀ name ∈ m.1.text?, f.Ignores name) :
    (f <*> g).Reads (ms ++ ns) (make a) := by
  obtain ⟨s, htakes, hfinish⟩ := hf
  obtain ⟨t, htakes', hfinish'⟩ := hg
  have hboth : (both f g).Reads (ms ++ ns) (make, a) := by
    refine ⟨(s, t), (htakes.both_left g.start).append (htakes'.both_right s hother), ?_⟩
    change (do let a ← f.finish s; let b ← g.finish t; pure (a, b)) = _
    rw [hfinish, hfinish']
    rfl
  exact hboth.map fun p => p.1 p.2

/-- One more required field at the end of a record. -/
theorem Reads.field {f : Fields (α → β)} {ms : List (Quoted × Reading)} {make : α → β}
    {d : Decoder α} {v : Reading} {a : α} (hf : f.Reads ms make) (name : String)
    (hd : d v = .ok a) (hother : f.Ignores name) :
    (f <*> Fields.required name d).Reads (ms ++ [(⟨some name⟩, v)]) (make a) := by
  refine hf.seq (.required name hd) ?_
  simpa using hother

/-- What the members read to is what the closed object decodes to. -/
theorem Reads.decode {f : Fields α} {ms : List (Quoted × Reading)} {a : α} {deep : Bool}
    (h : f.Reads ms a) : f.decode (.object deep ms .closed) = .ok a := by
  obtain ⟨st, htakes, hfinish⟩ := h
  rw [Fields.decode, members_of_takes htakes]
  exact hfinish

end Fields

/-! ## choices -/

section Choices

variable {α : Type}

/-- A name among the cases decodes to its own value. -/
theorem named_of_lookup {cases : List (String × α)} {name : String} {a : α}
    (h : cases.lookup name = some a) : named cases name = .ok a := by
  rw [named, h]

/-- The members of a case are kept as they are. -/
theorem splitKind_of_keep {cases : List (String × α)} {a : α} {ms : List (Quoted × Reading)}
    (hname : ∀ m ∈ ms, ∃ name, m.1 = ⟨some name⟩ ∧ name ≠ "kind")
    (hkeep : ∀ m ∈ ms, m.2.keep = .ok ()) : splitKind cases (some a) ms = .ok (some a, ms) := by
  induction ms with
  | nil => rfl
  | cons m ms ih =>
      obtain ⟨key, v⟩ := m
      rw [List.forall_mem_cons] at hname hkeep
      obtain ⟨⟨name, hkey, hne⟩, hname⟩ := hname
      dsimp only at hkey
      rw [splitKind, hkey]
      split
      · next heq => cases heq
      · next heq => exact absurd (Option.some.inj heq) hne
      · rw [hkeep.1, ih hname hkeep.2]
        rfl

/-- A tagged record is read by the case that its first member names. -/
theorem Decoder.tagged_object {cases : List (String × Decoder α)} {kind : String} {d : Decoder α}
    {ms : List (Quoted × Reading)} {a : α} (hcase : cases.lookup kind = some d)
    (hname : ∀ m ∈ ms, ∃ name, m.1 = ⟨some name⟩ ∧ name ≠ "kind")
    (hkeep : ∀ m ∈ ms, m.2.keep = .ok ()) (hd : d (.object false ms .closed) = .ok a) :
    tagged cases (.object false ((⟨some "kind"⟩, .string ⟨some kind⟩) :: ms) .closed) = .ok a := by
  have hsplit : splitKind cases none ((⟨some "kind"⟩, .string ⟨some kind⟩) :: ms) =
      .ok (some d, ms) := by
    rw [splitKind]
    simp only [Decoder.string, named_of_lookup hcase, bind, Except.bind,
      splitKind_of_keep hname hkeep]
  rw [tagged, hsplit]
  change (d (.object false ms .closed)).mapError _ = _
  rw [hd]
  rfl

/-- A case without fields is written as its bare name. -/
theorem Decoder.choice_bare {cases : List (String × Case α)} {name : String} {a : α}
    (hcase : cases.lookup name = some (.bare a)) :
    choice cases (.string ⟨some name⟩) = .ok a := by
  rw [choice, named_of_lookup hcase]
  rfl

/-- A case with fields is written as an object of one member. -/
theorem Decoder.choice_record {cases : List (String × Case α)} {name : String} {d : Decoder α}
    {deep : Bool} {v : Reading} {a : α} (hcase : cases.lookup name = some (.record d))
    (hd : d v = .ok a) : choice cases (.object deep [(⟨some name⟩, v)] .closed) = .ok a := by
  simp only [choice, named_of_lookup hcase, bind, Except.bind, Case.payload, hd]
  rfl

end Choices

end BindingSynthesis.Json
