import BindingSynthesis.Proofs.HostNames
import BindingSynthesis.Proofs.Places

/-!
# BindingSynthesis.Proofs.ForeignNames

Names of the foreign language, which is Python, in texts that it runs.

```
path     self.head       lib.io.load
names    self, head      lib, io, load
```

1. A name is an identifier that is no keyword.  In ASCII it has letters, digits and
   underscores; which other characters it may have, and the normal form that a name with
   them stands for, depend on the version of Unicode that an interpreter follows
   (`Alphabet`).
2. A path is names with dots between them.  Where each name stands for itself, the names
   that are read are the pieces between the dots (`path?_eq_segmentsOf_iff`).
3. Many names of the host language are none here: a keyword of this language may be an
   ordinary name there (`name?_of_mem_keywords`).
-/

namespace BindingSynthesis.Foreign

open Text

/-! ## names -/

/-- The keywords of the foreign language. -/
def keywords : List String :=
  ["False", "None", "True", "and", "as", "assert", "async", "await", "break", "class", "continue",
   "def", "del", "elif", "else", "except", "finally", "for", "from", "global", "if", "import",
   "in", "is", "lambda", "nonlocal", "not", "or", "pass", "raise", "return", "try", "while",
   "with", "yield"]

/-- The character belongs to ASCII. -/
def isAscii (c : Char) : Bool := c.toNat < 0x80

/-- What an interpreter knows of characters beyond ASCII. -/
structure Alphabet where
  /-- The character may start a name. -/
  isStart : Char → Bool
  /-- The character may stand in a name behind its start. -/
  isPart : Char → Bool
  /-- What a name with such characters stands for. -/
  normalForm : List Char → List Char

namespace Alphabet

/-- The character may start a name. -/
def startsName (a : Alphabet) (c : Char) : Bool :=
  if isAscii c then isLatinLetter c || c = '_' else a.isStart c

/-- The character may stand in a name. -/
def continuesName (a : Alphabet) (c : Char) : Bool :=
  if isAscii c then HostName.isWordChar c else a.isPart c

/-- The characters form an identifier. -/
def isIdentifier (a : Alphabet) : List Char → Bool
  | [] => false
  | c :: more => a.startsName c && more.all a.continuesName

/-- The name that characters stand for, if they form an identifier that is no keyword.  A
keyword is one by its characters, not by its normal form. -/
def name? (a : Alphabet) (cs : List Char) : Option String :=
  if a.isIdentifier cs && !keywords.contains (String.ofList cs) then
    some (String.ofList (if cs.all isAscii then cs else a.normalForm cs))
  else none

/-- The names on a path, with dots between them. -/
def path? (a : Alphabet) (cs : List Char) : Option (List String) := (segments '.' cs).mapM a.name?

/-- The text is a name, and the one that it stands for. -/
def IsName (a : Alphabet) (name : String) : Prop := a.name? name.toList = some name

instance (a : Alphabet) : DecidablePred a.IsName := fun name =>
  inferInstanceAs (Decidable (a.name? name.toList = some name))

variable {a : Alphabet}

/-- A keyword is no name. -/
theorem name?_of_mem_keywords {name : String} (h : name ∈ keywords) : a.name? name.toList = none := by
  simp [name?, h]

/-- **Words of ASCII are names**, whatever the alphabet, unless they are keywords. -/
theorem isName_of_isWordChar {name : String} {c : Char} {more : List Char}
    (hname : name.toList = c :: more) (hc : isLatinLetter c = true ∨ c = '_')
    (hmore : more.all HostName.isWordChar = true) (hkeyword : name ∉ keywords) :
    a.IsName name := by
  rw [List.all_eq_true] at hmore
  have hascii {d : Char} (hd : HostName.isWordChar d = true) : isAscii d = true :=
    decide_eq_true (HostName.toNat_lt_of_isWordChar hd)
  have hword : HostName.isWordChar c = true := by
    obtain hletter | rfl := hc
    · simp [HostName.isWordChar, hletter]
    · decide
  have hstart : a.startsName c = true := by
    rw [startsName, if_pos (hascii hword)]
    simpa using hc
  have hrest : more.all a.continuesName = true := by
    rw [List.all_eq_true]
    intro d hd
    rw [continuesName, if_pos (hascii (hmore d hd))]
    exact hmore d hd
  have hall : (c :: more).all isAscii = true := by
    rw [List.all_eq_true, List.forall_mem_cons]
    exact ⟨hascii hword, fun d hd => hascii (hmore d hd)⟩
  rw [IsName, name?, String.ofList_toList, hname, isIdentifier, hstart, hrest, if_pos hall,
    ← hname, String.ofList_toList]
  simp [hkeyword]

/-- Of ASCII, only letters, digits and underscores stand in a name. -/
theorem not_mem_of_name? {cs : List Char} {name : String} (h : a.name? cs = some name) {c : Char}
    (hascii : isAscii c = true) (hword : HostName.isWordChar c = false) : c ∉ cs := by
  have hnone : a.continuesName c = false := by rw [continuesName, if_pos hascii, hword]
  have hstart : a.startsName c = false := by
    rw [startsName, if_pos hascii]
    simp only [HostName.isWordChar, Bool.or_eq_false_iff] at hword
    rw [hword.1.1, hword.2]
    rfl
  intro hc
  rw [name?] at h
  split at h
  · next hname =>
      rw [Bool.and_eq_true] at hname
      cases cs with
      | nil => cases hc
      | cons d more =>
          rw [isIdentifier, Bool.and_eq_true, List.all_eq_true] at hname
          obtain rfl | hmore := List.mem_cons.mp hc
          · exact absurd hname.1.1 (by rw [hstart]; exact Bool.false_ne_true)
          · exact absurd (hname.1.2 c hmore) (by rw [hnone]; exact Bool.false_ne_true)
  · cases h

/-! ## paths -/

/-- Every part of a list is read as it is written exactly if all of it is. -/
theorem mapM_eq_some_map_iff {α β : Type} {f : α → Option β} {g : α → β} {xs : List α} :
    xs.mapM f = some (xs.map g) ↔ ∀ x ∈ xs, f x = some (g x) := by
  induction xs with
  | nil => simp
  | cons x xs ih =>
      rw [List.mapM_cons, List.forall_mem_cons, ← ih]
      cases f x <;> cases xs.mapM f <;> simp

/-- **A path is read as it is written** exactly if each piece of it is a name. -/
theorem path?_eq_segmentsOf_iff {path : String} :
    a.path? path.toList = some (segmentsOf '.' path) ↔
      ∀ name ∈ segmentsOf '.' path, a.IsName name := by
  rw [path?, segmentsOf, mapM_eq_some_map_iff, List.forall_mem_map]
  simp only [IsName, String.toList_ofList]

end Alphabet

end BindingSynthesis.Foreign
