import BindingSynthesis.Proofs.DeclaredNames

/-!
# BindingSynthesis.Proofs.UsableNames

Which foreign names get a host name, and what that name is like.

```
name    usable        not usable      a single character, no word character
host    ofForeign     none            none: it would be the bare underscore
```

1. Sanitizing keeps an identifier one, marked or not, and makes no digit of its first
   character (`isIdentifier_ofForeign`).
2. Only the bare underscore is a keyword with an underscore, so no replaced character
   makes another keyword, and the bare underscore is made of a single character only
   (`isUsable_ofForeign_iff`).
3. A host name is its own host name, as it is sanitized and no longer reserved
   (`forBinding?_host`).
-/

namespace BindingSynthesis.HostName

/-! ## identifiers -/

/-- A word character may stand in an identifier. -/
theorem isPart_of_isWordChar {c : Char} (h : isWordChar c = true) : isPart c = true := by
  simp only [isWordChar, Bool.or_eq_true, decide_eq_true_eq] at h
  obtain (hletter | hdigit) | rfl := h
  · simp [isPart, Text.isAlphanumeric, Text.isAlphabetic_of_isLatinLetter hletter]
  · simp [isPart, Text.isAlphanumeric, Text.isNumeric_of_isDigit hdigit]
  · decide

/-- What may start an identifier may do so after sanitizing. -/
theorem isStart_sanitizeChar {c : Char} (h : isStart c = true) :
    isStart (sanitizeChar c) = true := by
  rw [sanitizeChar]
  split
  · exact h
  · decide

theorem isIdentifier_map_sanitizeChar {cs : List Char} (h : isIdentifier cs = true) :
    isIdentifier (cs.map sanitizeChar) = true := by
  cases cs with
  | nil => cases h
  | cons c more =>
      rw [isIdentifier, Bool.and_eq_true] at h
      rw [List.map_cons, isIdentifier, Bool.and_eq_true, List.all_eq_true]
      refine ⟨isStart_sanitizeChar h.1, fun d hd => ?_⟩
      obtain ⟨e, -, rfl⟩ := List.mem_map.mp hd
      exact isPart_of_isWordChar (isWordChar_sanitizeChar e)

theorem isIdentifier_append {cs ds : List Char} (h : isIdentifier cs = true)
    (hds : ds.all isPart = true) : isIdentifier (cs ++ ds) = true := by
  cases cs with
  | nil => cases h
  | cons c more =>
      rw [isIdentifier, Bool.and_eq_true] at h
      rw [List.cons_append, isIdentifier, List.all_append, h.1, h.2, hds]
      rfl

/-- **Sanitizing keeps an identifier one**, also with a mark. -/
theorem isIdentifier_ofForeign {name : String} (h : isIdentifier name.toList = true) :
    isIdentifier (ofForeign name).toList = true := by
  rw [ofForeign, toList_sanitize]
  apply isIdentifier_map_sanitizeChar
  rw [guardReserved]
  split
  · rw [String.toList_append]
    exact isIdentifier_append h (by decide)
  · exact h

/-! ## lengths -/

theorem length_ofForeign (name : String) :
    (ofForeign name).length = name.length + if name ∈ reservedMethods then 3 else 0 := by
  rw [ofForeign, ← String.length_toList, toList_sanitize, List.length_map, String.length_toList,
    guardReserved]
  split
  · rw [String.length_append]
    rfl
  · rfl

/-- **Only a single character is sanitized to the bare underscore**, and only if it is
the underscore or no word character. -/
theorem ofForeign_eq_underscore_iff {name : String} :
    ofForeign name = "_" ↔ ∃ c, name.toList = [c] ∧ sanitizeChar c = '_' := by
  constructor
  · intro h
    have hlength := congrArg String.length h
    rw [length_ofForeign] at hlength
    have hplain : name ∉ reservedMethods := fun hreserved => by
      have hsingle : "_".length = 1 := rfl
      rw [if_pos hreserved] at hlength
      omega
    rw [ofForeign, guardReserved, if_neg hplain, ← String.toList_inj, toList_sanitize] at h
    exact List.map_eq_singleton_iff.mp h
  · rintro ⟨c, hname, hc⟩
    have hplain : name ∉ reservedMethods := fun hreserved => by
      have hlong : ∀ reserved ∈ reservedMethods, reserved.toList.length ≠ 1 := by decide
      exact hlong _ hreserved (by rw [hname]; rfl)
    rw [ofForeign, guardReserved, if_neg hplain, ← String.toList_inj, toList_sanitize, hname,
      List.map_singleton, hc]
    rfl

/-! ## host names -/

/-- **A host name is usable** exactly if it is no bare underscore: no replaced character
makes another keyword. -/
theorem isUsable_ofForeign_iff {name : String} (h : isUsable name = true) :
    isUsable (ofForeign name) = true ↔ ofForeign name ≠ "_" := by
  rw [isUsable, Bool.and_eq_true, Bool.not_eq_true', List.contains_eq_mem, decide_eq_false_iff_not]
    at h ⊢
  constructor
  · rintro ⟨-, hkeyword⟩ heq
    exact hkeyword (heq ▸ by decide)
  · refine fun hne => ⟨isIdentifier_ofForeign h.1, fun hkeyword => ?_⟩
    have hbare : ∀ keyword ∈ keywords, '_' ∈ keyword.toList → keyword = "_" := by decide
    have hplain : '_' ∉ (ofForeign name).toList := fun hmem => hne (hbare _ hkeyword hmem)
    exact h.2 (ofForeign_eq_self hplain ▸ hkeyword)

theorem isSome_forBinding?_iff {name : String} : (forBinding? name).isSome = true ↔
    isUsable name = true ∧ ∀ c, name.toList = [c] → isWordChar c = true := by
  rw [forBinding?, Option.isSome_ite, Bool.and_eq_true]
  refine and_congr_right fun husable => ?_
  rw [isUsable_ofForeign_iff husable, ne_eq, ofForeign_eq_underscore_iff]
  constructor
  · intro h c hname
    by_contra hword
    exact h ⟨c, hname, by rw [sanitizeChar, if_neg hword]⟩
  · rintro h ⟨c, hname, hc⟩
    rw [sanitizeChar_of_isWordChar (h c hname)] at hc
    have hunderscore : name = "_" := by rw [← String.toList_inj, hname, hc]; rfl
    rw [hunderscore] at husable
    revert husable
    decide

/-- **A host name is its own host name**. -/
theorem forBinding?_host {name host : String} (h : forBinding? name = some host) :
    forBinding? host = some host := by
  obtain ⟨-, husable, rfl⟩ := forBinding?_eq_some h
  have hself : ofForeign (ofForeign name) = ofForeign name := by
    rw [ofForeign, guardReserved, if_neg (ofForeign_not_reserved name), ofForeign,
      sanitize_sanitize]
  rw [forBinding?, hself, husable]
  rfl

/-- **Which names get a host name, and which**: a name gets one exactly if it is usable
and no single character outside of `[A-Za-z0-9_]`.  The host name may be declared, no
host object has a method of that name, it is as long as the name or three characters
longer than a reserved one, and it is its own host name. -/
theorem forBinding?_classified (name : String) :
    ((forBinding? name).isSome = true ↔
      isUsable name = true ∧ ∀ c, name.toList = [c] → isWordChar c = true) ∧
    ∀ host, forBinding? name = some host →
      IsWord host.toList ∧ host ≠ "_" ∧ host ∉ keywords ∧ host ∉ reservedMethods ∧
        host.length = name.length + (if name ∈ reservedMethods then 3 else 0) ∧
        forBinding? host = some host := by
  refine ⟨isSome_forBinding?_iff, fun host h => ?_⟩
  obtain ⟨⟨hword, hne, hkeyword⟩, hreserved⟩ := isDeclarable_of_forBinding? h
  obtain ⟨-, -, rfl⟩ := forBinding?_eq_some h
  exact ⟨hword, hne, hkeyword, hreserved, length_ofForeign name, forBinding?_host h⟩

/-- A reserved name, and names beyond ASCII: of one character and of more. -/
theorem forBinding?_awkwardNames :
    forBinding? "wait" = some "wait_py" ∧ forBinding? "wait_py" = some "wait_py" ∧
      "wait_py".length = "wait".length + 3 ∧ forBinding? "é" = none ∧
      forBinding? "né$" = some "n__" ∧ forBinding? "n__" = some "n__" := by
  have hwait : forBinding? "wait" = some "wait_py" := by decide +kernel
  have hbeyond : forBinding? "né$" = some "n__" := by decide +kernel
  have hsingle : (forBinding? "é").isSome ≠ true := fun h =>
    absurd (((forBinding?_classified "é").1.mp h).2 'é' rfl) (by decide)
  obtain ⟨-, -, -, -, hlength, hself⟩ := (forBinding?_classified "wait").2 "wait_py" hwait
  obtain ⟨-, -, -, -, -, hself'⟩ := (forBinding?_classified "né$").2 "n__" hbeyond
  exact ⟨hwait, hself, hlength, Option.not_isSome_iff_eq_none.mp hsingle, hbeyond, hself'⟩

end BindingSynthesis.HostName
