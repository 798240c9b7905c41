import BindingSynthesis.Library.Document
import BindingSynthesis.Proofs.AcceptedTexts

/-!
# BindingSynthesis.Proofs.GrownDocuments

A metadata document is read as before when its extractor writes more.

```
document   library  error  functions  classes        and unknown members
class      name  module  doc  methods                and unknown members
callable   name  args  params  optionalCount  doc  module   and unknown members
```

1. An object grows by members with unknown names, anywhere among the old ones, which may
   change places themselves; the values of the old ones stay or grow (`ObjectGrows`).  An
   array grows with its elements (`ArrayGrows`).
2. A record is read alike from an object that grows, and a list from an array that does
   (`Decoder.Sustains`).
3. So a document with grown callables, grown classes and more members is the same
   document (`parse_of_grows`).
-/

namespace BindingSynthesis

open Json

namespace Json

/-! ## growing texts -/

/-- The member keeps its key; its value stays the same, or grows as a value of this name
does. -/
def Member.Grows (Value : String → List Char → List Char → Prop) (m m' : Member) : Prop :=
  m'.key = m.key ∧ (m'.value.inner = m.value.inner ∨
    ∃ name : String, Spells m.key name.toList ∧ Value name m.value.inner m'.value.inner)

/-- An object grows by members with unknown names.  Its own members grow, and the order
of all is free. -/
inductive ObjectGrows (known : List String) (Value : String → List Char → List Char → Prop) :
    List Char → List Char → Prop
  | intro {space space' : List Char} {members kept extra members' : List Member}
    (hspace : IsSpaces space) (hspace' : IsSpaces space')
    (hmembers : ∀ m ∈ members, IsValue m.value.inner)
    (hkept : List.Forall₂ (Member.Grows Value) members kept)
    (hextra : ∀ m ∈ extra, IsValue m.value.inner ∧
      ∃ name : String, Spells m.key name.toList ∧ name ∉ known)
    (hperm : members'.Perm (kept ++ extra)) :
    ObjectGrows known Value (objectText space members) (objectText space' members')

/-- Only an object of the grammar grows. -/
theorem ObjectGrows.isValue {known : List String} {Value : String → List Char → List Char → Prop}
    {cs cs' : List Char} (h : ObjectGrows known Value cs cs') : IsValue cs := by
  obtain ⟨hspace, -, hmembers, -⟩ := h
  exact .object hspace hmembers

/-- The elements of an array stay the same or grow. -/
inductive ArrayGrows (Element : List Char → List Char → Prop) : List Char → List Char → Prop
  | intro {space space' : List Char} {items items' : List Padded}
    (hspace : IsSpaces space) (hspace' : IsSpaces space')
    (hitems : ∀ i ∈ items, IsValue i.inner)
    (hgrown : List.Forall₂ (fun i i' => i'.inner = i.inner ∨ Element i.inner i'.inner)
      items items') :
    ArrayGrows Element (arrayText space items) (arrayText space' items')

/-- Only an array of the grammar grows. -/
theorem ArrayGrows.isValue {Element : List Char → List Char → Prop} {cs cs' : List Char}
    (h : ArrayGrows Element cs cs') : IsValue cs := by
  obtain ⟨hspace, -, hitems, -⟩ := h
  exact .array hspace hitems

/-! ## reading what has grown -/

variable {α : Type}

/-- What has grown is still a value, and what the decoder reads from the old text it also
reads from the new one. -/
def Decoder.Sustains (d : Decoder α) (Grows : List Char → List Char → Prop) : Prop :=
  ∀ cs cs', Grows cs cs' →
    IsValue cs' ∧ ∀ level, d.Follows (readingOf level cs) (readingOf level cs')

/-- Every reading is read as itself. -/
theorem Decoder.Follows.refl (d : Decoder α) (v : Reading) : d.Follows v v := fun _ => id

/-- What stays the same or grows is still a value, and read as before. -/
theorem Decoder.Sustains.or_eq {d : Decoder α} {Grows : List Char → List Char → Prop}
    (h : d.Sustains Grows) {cs cs' : List Char} (hcs : IsValue cs)
    (hgrows : cs' = cs ∨ Grows cs cs') :
    IsValue cs' ∧ ∀ level, d.Follows (readingOf level cs) (readingOf level cs') := by
  obtain rfl | hgrows := hgrows
  · exact ⟨hcs, fun level => .refl d _⟩
  · exact h cs cs' hgrows

/-- What a relation says of its right side holds of every element on that side. -/
theorem forall_mem_of_forall₂ {β γ : Type} {R : β → γ → Prop} {P : γ → Prop} {bs : List β}
    {cs : List γ} (h : List.Forall₂ R bs cs) (hR : ∀ b c, R b c → P c) : ∀ c ∈ cs, P c := by
  induction h with
  | nil => exact List.forall_mem_nil _
  | cons hfirst _ ih => exact List.forall_mem_cons.mpr ⟨hR _ _ hfirst, ih⟩

/-- **A list is read from an array that grows**, if its elements are. -/
theorem Decoder.Sustains.list {d : Decoder α} {Element : List Char → List Char → Prop}
    (h : d.Sustains Element) : (Decoder.list d).Sustains (ArrayGrows Element) := by
  rintro _ _ @⟨space, space', items, items', hspace, hspace', hitems, hgrown⟩
  have hboth : List.Forall₂ (fun i i' => IsValue i'.inner ∧
      ∀ level, d.Follows (readingOf level i.inner) (readingOf level i'.inner)) items items' :=
    ((List.forall₂_and_left ..).mpr ⟨hitems, hgrown⟩).imp fun _ _ hi => h.or_eq hi.1 hi.2
  have hitems' := forall_mem_of_forall₂ hboth fun _ _ hi => hi.1
  refine ⟨.array hspace' hitems', fun level => ?_⟩
  rw [readingOf_arrayText hspace hitems, readingOf_arrayText hspace' hitems']
  refine Decoder.list_follows ?_ _ _
  rw [List.forall₂_map_left_iff, List.forall₂_map_right_iff]
  exact hboth.imp fun _ _ hi => hi.2 (level + 1)

/-- What has grown under a name is still a value, and the fields read it as before. -/
def Fields.Sustains (f : Fields α) (Value : String → List Char → List Char → Prop) : Prop :=
  ∀ name cs cs', Value name cs cs' →
    IsValue cs' ∧ ∀ level, f.Follows name (readingOf level cs) (readingOf level cs')

/-- A known member grows within its value, so the fields read it as they read the old one. -/
theorem Member.Grows.sustained {f : Fields α} {Value : String → List Char → List Char → Prop}
    (h : f.Sustains Value) {m m' : Member} (hm : IsValue m.value.inner)
    (hgrows : m.Grows Value m') :
    IsValue m'.value.inner ∧ ∀ level, f.Alike (m.reading level) (m'.reading level) := by
  obtain ⟨hkey, hsame | ⟨name, hspells, hvalue⟩⟩ := hgrows
  · refine ⟨hsame ▸ hm, fun level => ⟨by rw [reading, reading, hkey], ?_, ?_⟩⟩
    · rw [reading, hsame]
      exact hm.skip_readingOf level
    · intro name _
      simp only [reading, hsame]
      exact .refl f name _
  · obtain ⟨hm', hfollows⟩ := h name _ _ hvalue
    refine ⟨hm', fun level => ⟨by rw [reading, reading, hkey], hm'.skip_readingOf level, ?_⟩⟩
    intro name' hname'
    rw [reading, quotedOf_of_spells hspells] at hname'
    cases hname'
    exact hfollows level

/-- **A record is read from an object that grows**. -/
theorem Fields.Sustains.decode {f : Fields α} {known : List String}
    {Value : String → List Char → List Char → Prop} (h : f.Sustains Value) (horder : f.Orderless)
    (hknown : ∀ name, name ∉ known → f.Ignores name) :
    f.decode.Sustains (ObjectGrows known Value) := by
  rintro _ _ @⟨space, space', members, kept, extra, members', hspace, hspace', hmembers, hkept,
    hextra, hperm⟩
  have hboth := ((List.forall₂_and_left ..).mpr ⟨hmembers, hkept⟩).imp
    fun _ _ hm => hm.2.sustained h hm.1
  have hmembers' : ∀ m ∈ members', IsValue m.value.inner := by
    intro m hm
    obtain hm | hm := List.mem_append.mp (hperm.mem_iff.mp hm)
    · exact forall_mem_of_forall₂ hboth (fun _ _ hm => hm.1) m hm
    · exact (hextra m hm).1
  refine ⟨.object hspace' hmembers', fun level => ?_⟩
  rw [readingOf_objectText hspace hmembers, readingOf_objectText hspace' hmembers']
  refine horder.decode_follows ?_ ?_ (List.map_append ▸ hperm.map _) _ _
  · rw [List.forall₂_map_left_iff, List.forall₂_map_right_iff]
    exact hboth.imp fun _ _ hm => hm.2 (level + 1)
  · intro r hr
    obtain ⟨m, hm, rfl⟩ := List.mem_map.mp hr
    obtain ⟨hvalue, name, hspells, hname⟩ := hextra m hm
    exact ⟨name, quotedOf_of_spells hspells, hknown name hname, hvalue.skip_readingOf _⟩

end Json

/-! ## metadata documents -/

/-- The names of the members of a callable. -/
def Callable.memberNames : List String :=
  ["name", "args", "params", "optionalCount", "doc", "module"]

/-- A written callable grows by members with other names. -/
def Callable.TextGrows : List Char → List Char → Prop :=
  ObjectGrows Callable.memberNames fun _ _ _ => False

/-- The names of the members of a class. -/
def ForeignClass.memberNames : List String := ["name", "module", "doc", "methods"]

/-- A written class grows by members with other names, and with its methods. -/
def ForeignClass.TextGrows : List Char → List Char → Prop :=
  ObjectGrows ForeignClass.memberNames fun name cs cs' =>
    name = "methods" ∧ ArrayGrows Callable.TextGrows cs cs'

namespace MetadataDocument

/-- The names of the members of a document. -/
def memberNames : List String := ["library", "error", "functions", "classes"]

/-- A written document grows by members with other names, with its functions and with its
classes. -/
def TextGrows : List Char → List Char → Prop :=
  ObjectGrows memberNames fun name cs cs' =>
    name = "functions" ∧ ArrayGrows Callable.TextGrows cs cs' ∨
      name = "classes" ∧ ArrayGrows ForeignClass.TextGrows cs cs'

end MetadataDocument

/-- The members of a callable may stand in any order. -/
theorem Callable.orderless_fields : Callable.fields.Orderless :=
  (((((Fields.orderless_withDefault ..).map _).seq (Fields.orderless_single ..)).seq
    (Fields.orderless_withDefault ..)).seq (Fields.orderless_withDefault ..)).seq
    (Fields.orderless_withDefault ..)

/-- A callable that grows is read as the callable it was. -/
theorem Callable.sustains_decode : Callable.fields.decode.Sustains Callable.TextGrows := by
  refine Fields.Sustains.decode (fun _ _ _ => False.elim) Callable.orderless_fields ?_
  intro name hname
  simpa [memberNames, fields, and_assoc] using hname

/-- So may the members of a class. -/
theorem ForeignClass.orderless_fields : ForeignClass.fields.Orderless :=
  ((((Fields.orderless_withDefault ..).map _).seq (Fields.orderless_withDefault ..)).seq
    (Fields.orderless_withDefault ..)).seq (Fields.orderless_withDefault ..)

/-- A class that grows, in its own members or in its methods, is read as the class it was. -/
theorem ForeignClass.sustains_decode :
    ForeignClass.fields.decode.Sustains ForeignClass.TextGrows := by
  refine Fields.Sustains.decode ?_ ForeignClass.orderless_fields ?_
  · rintro name cs cs' ⟨rfl, hgrows⟩
    obtain ⟨hcs', hfollows⟩ := Callable.sustains_decode.list cs cs' hgrows
    refine ⟨hcs', fun level => ?_⟩
    exact ((((Fields.follows_of_ne (by decide) ..).map _).seq
      (Fields.follows_of_ne (by decide) ..)).seq (Fields.follows_of_ne (by decide) ..)).seq
      (Fields.follows_withDefault fun _ => hfollows level)
  · intro name hname
    simpa [memberNames, fields, and_assoc] using hname

/-- An object that decodes to a callable was read up to its closing brace. -/
theorem Callable.finishes_decode : Callable.fields.decode.Finishes :=
  (((((Fields.finish_withDefault _ Decoder.finishes_nullableString _).map _).seq
    (Fields.finish_single _ Decoder.finishes_string.list _ _)).seq
    (Fields.finish_withDefault _ Decoder.finishes_natural _)).seq
    (Fields.finish_withDefault _ Decoder.finishes_string.option _)).seq
    (Fields.finish_withDefault _ Decoder.finishes_nullableString _) |>.decode

/-- So was one that decodes to a class, with all its methods. -/
theorem ForeignClass.finishes_decode : ForeignClass.fields.decode.Finishes :=
  ((((Fields.finish_withDefault _ Decoder.finishes_nullableString _).map _).seq
    (Fields.finish_withDefault _ Decoder.finishes_nullableString _)).seq
    (Fields.finish_withDefault _ Decoder.finishes_string.option _)).seq
    (Fields.finish_withDefault _ Callable.finishes_decode.list _) |>.decode

namespace MetadataDocument

/-- A document that decodes was read to its end, so the text of it is in the grammar. -/
theorem finishes_decode : MetadataDocument.fields.decode.Finishes :=
  ((((Fields.finish_withDefault _ Decoder.finishes_string.option _).map _).seq
    (Fields.finish_withDefault _ Decoder.finishes_string.option _)).seq
    (Fields.finish_withDefault _ Callable.finishes_decode.list _)).seq
    (Fields.finish_withDefault _ ForeignClass.finishes_decode.list _) |>.decode

/-- The members of a document may stand in any order. -/
theorem orderless_fields : MetadataDocument.fields.Orderless :=
  ((((Fields.orderless_withDefault ..).map _).seq (Fields.orderless_withDefault ..)).seq
    (Fields.orderless_withDefault ..)).seq (Fields.orderless_withDefault ..)

/-- Growth anywhere inside a document leaves what is decoded from it as it was. -/
theorem sustains_decode : MetadataDocument.fields.decode.Sustains TextGrows := by
  refine Fields.Sustains.decode ?_ orderless_fields ?_
  · rintro name cs cs' (⟨rfl, hgrows⟩ | ⟨rfl, hgrows⟩)
    · obtain ⟨hcs', hfollows⟩ := Callable.sustains_decode.list cs cs' hgrows
      exact ⟨hcs', fun level => ((((Fields.follows_of_ne (by decide) ..).map _).seq
        (Fields.follows_of_ne (by decide) ..)).seq
        (Fields.follows_withDefault fun _ => hfollows level)).seq
        (Fields.follows_of_ne (by decide) ..)⟩
    · obtain ⟨hcs', hfollows⟩ := ForeignClass.sustains_decode.list cs cs' hgrows
      exact ⟨hcs', fun level => ((((Fields.follows_of_ne (by decide) ..).map _).seq
        (Fields.follows_of_ne (by decide) ..)).seq (Fields.follows_of_ne (by decide) ..)).seq
        (Fields.follows_withDefault fun _ => hfollows level)⟩
  · intro name hname
    simpa [memberNames, fields, and_assoc] using hname

/-- The text of a document grows with the document, whatever white space is around it. -/
def Grows (cs cs' : List Char) : Prop :=
  ∃ p p' : Padded, cs = p.text ∧ cs' = p'.text ∧ TextGrows p.inner p'.inner

/-- **A metadata document is read as before when it grows**.  A text that is accepted is
a JSON text, so its objects have their members and its arrays their elements.  Members
with other names may be put into the document and into its classes, methods and functions,
with whatever values, and the members of each may change places: the text is accepted
again, as the same document. -/
theorem parse_of_grows {text : String} {d : MetadataDocument} (h : parse text = .ok d) :
    IsText text.toList ∧
      ∀ text' : String, Grows text.toList text'.toList → parse text' = .ok d := by
  refine ⟨finishes_decode.isText h, ?_⟩
  rintro text' ⟨p, p', htext, htext', hgrows⟩
  have hvalue : IsValue p.inner := hgrows.isValue
  obtain ⟨hvalue', hfollows⟩ := sustains_decode p.inner p'.inner hgrows
  rw [parse, decode_of_isValue _ hvalue htext] at h
  rw [parse, decode_of_isValue _ hvalue' htext']
  exact hfollows 0 d h

/-! ### a document that grows -/

/-- A text without white space around it. -/
def bare (cs : List Char) : Padded := ⟨[], cs, [], isSpaces_nil, isSpaces_nil⟩

/-- A member without white space. -/
def member (raw : List Char) (h : IsStringBody raw) (value : List Char) : Member :=
  ⟨[], raw, [], bare value, isSpaces_nil, h, isSpaces_nil⟩

/-- A member whose key spells itself. -/
def plainMember (key : List Char) (h : key.all isPlain = true) (value : List Char) : Member :=
  member key (spells_self h).isStringBody value

def nameMember : Member := plainMember "name".toList rfl (stringText "read".toList)

def libraryMember : Member := plainMember "library".toList rfl (stringText "table".toList)

/-- A function with some members. -/
def functionsMember (members : List Member) : Member :=
  plainMember "functions".toList rfl (arrayText [] [bare (objectText [] members)])

/-- A key that is written with an escape. -/
theorem spells_role : Spells "\\u0072ole".toList "role".toList :=
  .unit (n := 0x72) rfl rfl rfl (show Spells ['o', 'l', 'e'] ['o', 'l', 'e'] from
    spells_self rfl)

def roleMember : Member := member "\\u0072ole".toList spells_role.isStringBody "null".toList

/-- A nested value with a number that no machine has. -/
def boundsMember : Member :=
  plainMember "bounds".toList rfl
    (arrayText [] [bare (objectText [] [plainMember [] rfl "-1E999".toList])])

def tableText : String := "\x7b\"functions\":[\x7b\"name\":\"read\"\x7d],\"library\":\"table\"\x7d"

def grownText : String :=
  "\x7b\"library\":\"table\",\"bounds\":[\x7b\"\":-1E999\x7d]," ++
    "\"functions\":[\x7b\"\\u0072ole\":null,\"name\":\"read\"\x7d]\x7d"

/-- A text that needs no escapes is a string of the grammar between its quotes. -/
theorem isValue_plainString {cs : List Char} (h : cs.all isPlain = true) :
    IsValue (stringText cs) := .string (spells_self h).isStringBody

/-- The value of the new member is in the grammar, although its number is out of range. -/
theorem isValue_boundsMember : IsValue boundsMember.value.inner := by
  have hnumber : IsValue "-1E999".toList :=
    .number ⟨['-'], ['1'], [], "E999".toList, .inr rfl,
      .inr ⟨⟨by decide, List.all_eq_true.mp rfl⟩, by decide⟩, .inl rfl,
      .inr ⟨'E', [], "999".toList, .inr rfl, .inl rfl, ⟨by decide, List.all_eq_true.mp rfl⟩, rfl⟩,
      rfl⟩
  refine .array isSpaces_nil (List.forall_mem_singleton.mpr ?_)
  exact .object isSpaces_nil (List.forall_mem_singleton.mpr hnumber)

/-- The function gets a role, the document gets bounds, and the members of both change
places. -/
theorem tableText_grows : Grows tableText.toList grownText.toList := by
  have hname : IsValue nameMember.value.inner := isValue_plainString rfl
  have hlibrary : IsValue libraryMember.value.inner := isValue_plainString rfl
  have hfunction : Callable.TextGrows (objectText [] [nameMember])
      (objectText [] [roleMember, nameMember]) :=
    @ObjectGrows.intro _ _ _ _ _ [nameMember] [roleMember] _ isSpaces_nil isSpaces_nil
      (List.forall_mem_singleton.mpr hname) (.cons ⟨rfl, .inl rfl⟩ .nil)
      (List.forall_mem_singleton.mpr ⟨.null, "role", spells_role, by decide⟩)
      (List.Perm.swap ..)
  have hfunctions : ArrayGrows Callable.TextGrows (functionsMember [nameMember]).value.inner
      (functionsMember [roleMember, nameMember]).value.inner :=
    .intro isSpaces_nil isSpaces_nil
      (List.forall_mem_singleton.mpr (.object isSpaces_nil (List.forall_mem_singleton.mpr hname)))
      (.cons (.inr hfunction) .nil)
  refine ⟨bare (objectText [] [functionsMember [nameMember], libraryMember]),
    bare (objectText [] [libraryMember, boundsMember, functionsMember [roleMember, nameMember]]),
    by decide +kernel, by decide +kernel, ?_⟩
  refine @ObjectGrows.intro _ _ _ _ _
    [functionsMember [roleMember, nameMember], libraryMember] [boundsMember] _ isSpaces_nil
    isSpaces_nil ?_ ?_
    (List.forall_mem_singleton.mpr ⟨isValue_boundsMember, "bounds", spells_self rfl,
      by decide⟩) ?_
  · exact List.forall_mem_cons.mpr ⟨hfunctions.isValue, List.forall_mem_singleton.mpr hlibrary⟩
  · exact .cons ⟨rfl, .inr ⟨"functions", spells_self rfl, .inl ⟨rfl, hfunctions⟩⟩⟩
      (.cons ⟨rfl, .inl rfl⟩ .nil)
  · exact @List.perm_append_comm _ [libraryMember, boundsMember] _

/-- The document of both texts. -/
def tableDocument : MetadataDocument := ⟨some "table", none, [⟨"read", [], 0, none, ""⟩], []⟩

/-- Both texts are read as the same document, the old one and the grown one. -/
theorem parse_of_grows_tableText :
    parse tableText = .ok tableDocument ∧ Grows tableText.toList grownText.toList ∧
      parse grownText = .ok tableDocument :=
  have hparse : parse tableText = .ok tableDocument := by decide +kernel
  ⟨hparse, tableText_grows, (parse_of_grows hparse).2 grownText tableText_grows⟩

end MetadataDocument

end BindingSynthesis
