import BindingSynthesis.HostName

/-!
# BindingSynthesis.Proofs.HostNames

What foreign names become, read backwards.

1. Sanitizing changes a name only where it puts an underscore, so a result
   without underscores is the name itself (`sanitize_eq_self`).
2. A mark for a reserved name has an underscore in it, so a host name without
   underscores comes from one foreign name only (`forBinding?_eq_some_iff`).
3. The alias of a module is an underscore and the sanitized path
   (`moduleAlias_eq`).
4. Capitalizing a sanitized name leaves word characters only
   (`isWordChar_of_mem_capitalize`).
-/

namespace BindingSynthesis.HostName

theorem sanitizeChar_of_ne {c : Char} (h : sanitizeChar c ≠ '_') : sanitizeChar c = c := by
  rw [sanitizeChar] at h ⊢
  split at h
  · next hc => rw [if_pos hc]
  · exact absurd rfl h

/-- A sanitized name without underscores is the name itself. -/
theorem sanitize_eq_self {name : String} (h : '_' ∉ (sanitize name).toList) :
    sanitize name = name := by
  have hchars : ∀ c ∈ name.toList, sanitizeChar c = c := fun c hc =>
    sanitizeChar_of_ne fun he => h (by
      rw [toList_sanitize]
      exact he ▸ List.mem_map_of_mem hc)
  rw [sanitize, List.map_congr_left hchars, List.map_id', String.ofList_toList]

/-- A guarded name without underscores is the name itself. -/
theorem guardReserved_eq_self {name : String} (h : '_' ∉ (guardReserved name).toList) :
    guardReserved name = name := by
  rw [guardReserved] at h ⊢
  split at h
  · exact absurd (by simp [reservedEnding]) h
  · next hn => rw [if_neg hn]

/-- A host name without underscores is the foreign name itself. -/
theorem ofForeign_eq_self {name : String} (h : '_' ∉ (ofForeign name).toList) :
    ofForeign name = name := by
  have hs : ofForeign name = guardReserved name := sanitize_eq_self h
  rw [hs] at h ⊢
  exact guardReserved_eq_self h

/-- **Host names without underscores** come from one foreign name: a name that
is its own host name and has no underscore is that of no other name. -/
theorem forBinding?_eq_some_iff {host name : String} (hplain : '_' ∉ host.toList)
    (hself : forBinding? host = some host) : forBinding? name = some host ↔ name = host := by
  constructor
  · intro h
    have hhost : ofForeign name = host := by
      rw [forBinding?] at h
      split at h
      · exact Option.some.inj h
      · cases h
    rw [← hhost] at hplain
    rw [← hhost, ofForeign_eq_self hplain]
  · intro h
    rw [h, hself]

/-- The dots of a module path become underscores either way. -/
theorem moduleAlias_eq (modulePath : String) :
    moduleAlias modulePath = "_" ++ sanitize modulePath := by
  have h : ∀ cs : List Char,
      (Text.replaceChar '.' ['_'] cs).map sanitizeChar = cs.map sanitizeChar := by
    intro cs
    induction cs with
    | nil => rfl
    | cons c cs ih =>
        rw [Text.replaceChar_cons, List.map_append, ih, List.map_cons]
        by_cases hc : c = '.'
        · rw [if_pos hc, hc]
          rfl
        · rw [if_neg hc]
          rfl
  rw [moduleAlias, sanitize, String.toList_ofList, h, sanitize]

/-- Paths have the same alias exactly if they are the same once sanitized. -/
theorem moduleAlias_eq_iff {a b : String} :
    moduleAlias a = moduleAlias b ↔ sanitize a = sanitize b := by
  rw [moduleAlias_eq, moduleAlias_eq]
  exact String.append_right_inj "_"

/-- An alias is longer than the path. -/
theorem moduleAlias_ne (modulePath : String) : moduleAlias modulePath ≠ modulePath := by
  intro h
  have hlength := congrArg (fun s : String => s.toList.length) h
  simp [moduleAlias_eq] at hlength

/-! ## word characters -/

theorem isWordChar_of_mem_sanitize {name : String} {c : Char} (hc : c ∈ (sanitize name).toList) :
    isWordChar c = true := by
  rw [toList_sanitize] at hc
  obtain ⟨d, -, rfl⟩ := List.mem_map.mp hc
  exact isWordChar_sanitizeChar d

theorem toNat_lt_of_isWordChar {c : Char} (hc : isWordChar c = true) : c.toNat < 0x80 := by
  simp only [isWordChar, Text.isLatinLetter, Text.isDigit, Bool.or_eq_true, Bool.and_eq_true,
    decide_eq_true_eq, Char.le_def, UInt32.le_iff_toNat_le] at hc
  have hz : ('z' : Char).val.toNat = 122 := rfl
  have hZ : ('Z' : Char).val.toNat = 90 := rfl
  have h9 : ('9' : Char).val.toNat = 57 := rfl
  obtain (hletter | hdigit) | rfl := hc
  · simp only [Char.toNat]
    omega
  · simp only [Char.toNat]
    omega
  · decide

/-- Word characters are in upper case what they are or another letter. -/
theorem isWordChar_of_mem_uppercase {c d : Char} (hc : isWordChar c = true)
    (hd : d ∈ Text.uppercase c) : isWordChar d = true := by
  have hsmall := toNat_lt_of_isWordChar hc
  have hall : ∀ n < 0x80, isWordChar (Char.ofNat n) = true →
      (Text.uppercase (Char.ofNat n)).all isWordChar = true := by decide
  have h := hall c.toNat hsmall
  rw [Char.ofNat_toNat] at h
  exact List.all_eq_true.mp (h hc) d hd

/-- A sanitized name in capitals has word characters only. -/
theorem isWordChar_of_mem_capitalize {name : String} {c : Char}
    (hc : c ∈ (capitalize (sanitize name)).toList) : isWordChar c = true := by
  have hword : ∀ d ∈ (sanitize name).toList, isWordChar d = true :=
    fun _ => isWordChar_of_mem_sanitize
  rw [capitalize] at hc
  split at hc
  · cases hc
  · next first more hname =>
      rw [hname, List.forall_mem_cons] at hword
      rw [String.toList_ofList, List.mem_append] at hc
      obtain hfirst | hmore := hc
      · exact isWordChar_of_mem_uppercase hword.1 hfirst
      · exact hword.2 c hmore

end BindingSynthesis.HostName
