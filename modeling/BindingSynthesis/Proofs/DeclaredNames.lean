import BindingSynthesis.Proofs.PlanCoherence
import BindingSynthesis.Proofs.WrapperNames

/-!
# BindingSynthesis.Proofs.DeclaredNames

The names that a plan declares in the host language.

```
wrapper          prefix ++ word characters
overload         host                a usable name, sanitized
                 host ++ ending      if a map of keywords follows
```

1. A host name may be declared as it is: what is usable and has word characters only
   does not start with a digit, and a name that every host object has is marked
   (`isDeclarable_of_forBinding?`).
2. Word characters behind it keep a name declarable, unless a keyword ends with
   them (`IsDeclarable.append`), and so does a prefix that starts no keyword
   (`isDeclarable_prefix_append`).
3. The usual prefix and the usual ending are of that kind, so every name of a plan
   may be declared (`isDeclarable_names`).
-/

namespace BindingSynthesis

namespace HostName

/-! ## declarable names -/

/-- The characters match `[A-Za-z_][A-Za-z0-9_]*`. -/
def IsWord : List Char → Prop
  | [] => False
  | c :: more => (Text.isLatinLetter c = true ∨ c = '_') ∧ ∀ d ∈ more, isWordChar d = true

/-- The host language accepts the name where a class or a method is declared. -/
structure IsDeclarable (name : String) : Prop where
  word : IsWord name.toList
  ne_underscore : name ≠ "_"
  not_keyword : name ∉ keywords

/-- The bare underscore is one of the keywords. -/
theorem IsDeclarable.of_not_keyword {name : String} (hword : IsWord name.toList)
    (hkeyword : name ∉ keywords) : IsDeclarable name :=
  ⟨hword, fun h => hkeyword (h ▸ by decide), hkeyword⟩

theorem IsWord.append {cs ds : List Char} (h : IsWord cs) (hds : ∀ d ∈ ds, isWordChar d = true) :
    IsWord (cs ++ ds) := by
  cases cs with
  | nil => cases h
  | cons c more =>
      refine ⟨h.1, fun d hd => ?_⟩
      obtain hmore | hds' := List.mem_append.mp hd
      · exact h.2 d hmore
      · exact hds d hds'

/-- **A declarable name stays so behind a prefix** that starts no keyword. -/
theorem isDeclarable_prefix_append {start rest : String} (hstart : IsWord start.toList)
    (hkeywords : ∀ keyword ∈ keywords, ¬start.toList <+: keyword.toList)
    (hrest : ∀ c ∈ rest.toList, isWordChar c = true) : IsDeclarable (start ++ rest) := by
  refine .of_not_keyword ?_ fun hkeyword => hkeywords _ hkeyword ?_
  · rw [String.toList_append]
    exact hstart.append hrest
  · rw [String.toList_append]
    exact List.prefix_append _ _

/-- **A declarable name stays so with an ending** that ends no keyword. -/
theorem IsDeclarable.append {name ending : String} (h : IsDeclarable name)
    (hword : ∀ c ∈ ending.toList, isWordChar c = true)
    (hkeywords : ∀ keyword ∈ keywords, ¬ending.toList <:+ keyword.toList) :
    IsDeclarable (name ++ ending) := by
  refine .of_not_keyword ?_ fun hkeyword => hkeywords _ hkeyword ?_
  · rw [String.toList_append]
    exact h.word.append hword
  · rw [String.toList_append]
    exact List.suffix_append _ _

/-! ## host names -/

/-- A word character that may start an identifier is no digit. -/
theorem isLatinLetter_of_isStart {c : Char} (hword : isWordChar c = true)
    (hstart : isStart c = true) : Text.isLatinLetter c = true ∨ c = '_' := by
  simp only [isStart, Bool.or_eq_true, decide_eq_true_eq] at hstart
  obtain (halphabetic | hunderscore) | rfl := hstart
  · rw [Text.isAlphabetic, if_pos (toNat_lt_of_isWordChar hword)] at halphabetic
    exact .inl halphabetic
  · exact .inr hunderscore
  · exact absurd hword (by decide)

theorem isWord_of_isIdentifier {cs : List Char} (hid : isIdentifier cs = true)
    (hword : ∀ c ∈ cs, isWordChar c = true) : IsWord cs := by
  cases cs with
  | nil => cases hid
  | cons c more =>
      rw [isIdentifier, Bool.and_eq_true] at hid
      rw [List.forall_mem_cons] at hword
      exact ⟨isLatinLetter_of_isStart hword.1 hid.1, hword.2⟩

/-- What is usable and has word characters only may be declared. -/
theorem isDeclarable_of_isUsable {name : String} (husable : isUsable name = true)
    (hword : ∀ c ∈ name.toList, isWordChar c = true) : IsDeclarable name := by
  rw [isUsable, Bool.and_eq_true] at husable
  refine .of_not_keyword (isWord_of_isIdentifier husable.1 hword) fun hkeyword => ?_
  simp [hkeyword] at husable

theorem forBinding?_eq_some {name host : String} (h : forBinding? name = some host) :
    isUsable name = true ∧ isUsable host = true ∧ ofForeign name = host := by
  rw [forBinding?] at h
  split at h
  · next husable =>
      rw [Bool.and_eq_true] at husable
      cases h
      exact ⟨husable.1, husable.2, rfl⟩
  · cases h

/-- A reserved name has no underscore, and a name that was marked has one. -/
theorem ofForeign_not_reserved (name : String) : ofForeign name ∉ reservedMethods := by
  intro hreserved
  have hplain : '_' ∉ (ofForeign name).toList :=
    (by decide : ∀ reserved ∈ reservedMethods, '_' ∉ reserved.toList) _ hreserved
  have hself := ofForeign_eq_self hplain
  rw [hself] at hreserved
  rw [ofForeign, guardReserved, if_pos hreserved, toList_sanitize] at hplain
  exact hplain (List.mem_map.mpr ⟨'_', by simp [reservedEnding], by decide⟩)

/-- **Host names may be declared**, and no host object has a method of that name. -/
theorem isDeclarable_of_forBinding? {name host : String} (h : forBinding? name = some host) :
    IsDeclarable host ∧ host ∉ reservedMethods := by
  obtain ⟨-, husable, rfl⟩ := forBinding?_eq_some h
  exact ⟨isDeclarable_of_isUsable husable fun _ => isWordChar_of_mem_sanitize,
    ofForeign_not_reserved name⟩

end HostName

/-! ## the names of a plan -/

namespace Synthesis

open HostName

variable {o : SynthesisOptions} {l : Library}

/-- **Every declared name is legal**: with the usual prefix and the usual ending, the
wrappers and the overloads of a plan have names that the host language accepts, and
no overload has a name that every host object has. -/
theorem isDeclarable_names (o : SynthesisOptions) (l : Library)
    (howner : o.ownerPrefix = ({} : SynthesisOptions).ownerPrefix)
    (hending : o.kwargsSuffix = ({} : SynthesisOptions).kwargsSuffix) {w : Wrapper}
    (hw : w ∈ (synthesize o l).wrappers) :
    IsDeclarable w.name ∧ ∀ b ∈ w.bindings, IsDeclarable b.name ∧ b.name ∉ reservedMethods := by
  constructor
  · obtain ⟨rest, hname, hrest⟩ := name_of_mem_wrappers hw
    rw [hname, howner]
    exact isDeclarable_prefix_append ⟨.inl (by decide), by simp⟩ (by decide) hrest
  · intro b hb
    obtain ⟨_, host, hhost, hname⟩ := host_of_mem_bindings hw hb
    obtain ⟨hdeclarable, hreserved⟩ := isDeclarable_of_forBinding? hhost
    cases htail : b.keywordTail with
    | false =>
        rw [htail] at hname
        rw [hname]
        exact ⟨hdeclarable, hreserved⟩
    | true =>
        rw [htail, if_pos rfl, hending] at hname
        rw [hname]
        have hword : "WithKwargs".toList.all isWordChar = true := by decide
        -- No name of a method that every host object has ends like this.
        have hends : ∀ reserved ∈ reservedMethods, ¬"WithKwargs".toList <:+ reserved.toList := by
          decide
        refine ⟨hdeclarable.append (List.all_eq_true.mp hword) (by decide),
          fun hmem => hends _ hmem ?_⟩
        rw [String.toList_append]
        exact List.suffix_append _ _

/-- A class named like a keyword, with a method that every host object has. -/
def keywordClass : ForeignClass :=
  ⟨"class", "lib", none, [⟨"wait", ["self", "n"], 1, none, "lib"⟩, ⟨"9", ["self"], 0, none, "lib"⟩]⟩

/-- A library of that class. -/
def awkwardLibrary : Library := ⟨"lib", [], [keywordClass]⟩

/-- The class gets a prefix and its method a mark, also before the ending. -/
theorem isDeclarable_awkwardLibrary :
    (classWrapper {} "lib" keywordClass).1 ∈ (synthesize {} awkwardLibrary).wrappers ∧
      (classWrapper {} "lib" keywordClass).1.name = "Jclass" ∧
      (classWrapper {} "lib" keywordClass).1.bindings.map Binding.name =
        ["wait_py", "wait_py", "wait_pyWithKwargs"] ∧
      IsDeclarable (classWrapper {} "lib" keywordClass).1.name ∧
      ∀ b ∈ (classWrapper {} "lib" keywordClass).1.bindings,
        IsDeclarable b.name ∧ b.name ∉ reservedMethods := by
  have hw : (classWrapper {} "lib" keywordClass).1 ∈ (synthesize {} awkwardLibrary).wrappers :=
    mem_wrappers_synthesize.mpr (.inr ⟨keywordClass, by decide +kernel, rfl⟩)
  exact ⟨hw, by decide +kernel, by decide +kernel,
    isDeclarable_names {} awkwardLibrary rfl rfl hw⟩

end Synthesis

end BindingSynthesis
