import BindingSynthesis.Json.Basic
import BindingSynthesis.Json.Reader

/-!
# BindingSynthesis.Proofs.JsonText

A written value is read as itself, in either form.

```
value  ──write──▶  text  ──tokens──▶  tokensOf value  ──readValue──▶  readingAt 0 value
```

1. Every token takes at least one character, so the tokens of a text are its
   first token and the tokens of what that leaves (`tokens_of_scanToken`).
2. The two forms differ in white space only: both have the tokens of the value
   (`tokens_writeCompact`, `tokens_writePretty`).
3. Two calls of the reader for each token suffice (`readValue_tokensOf`), so both
   forms of a value have one reading (`read_compact`, `read_pretty`).
-/

namespace BindingSynthesis.Json

open Text

/-! ## a token takes a character -/

/-- One step after another succeeds if both do. -/
theorem bind_eq_ok {ε α β : Type} {x : Except ε α} {f : α → Except ε β} {b : β} :
    (x >>= f) = .ok b ↔ ∃ a, x = .ok a ∧ f a = .ok b := by
  cases x <;> simp [bind, Except.bind]

theorem length_dropWhile_le (p : Char → Bool) (cs : List Char) :
    (cs.dropWhile p).length ≤ cs.length :=
  (List.dropWhile_suffix p).length_le

/-- Dropping something leaves less. -/
theorem length_dropWhile_lt {p : Char → Bool} {cs : List Char} (h : cs.takeWhile p ≠ []) :
    (cs.dropWhile p).length < cs.length := by
  have hlength := congrArg List.length (List.takeWhile_append_dropWhile (p := p) (l := cs))
  have hpos := List.length_pos_iff.mpr h
  rw [List.length_append] at hlength
  omega

/-- What follows a string is no longer than what the string starts. -/
theorem length_rest_scanString (cs : List Char) : (scanString cs).rest.length ≤ cs.length := by
  fun_induction scanString cs <;> simp_all [StringScan.push, StringScan.cut] <;> omega

/-- The letters of a word are taken off the front. -/
theorem length_scanLetters {letters cs rest : List Char} (h : scanLetters letters cs = .ok rest) :
    rest.length ≤ cs.length := by
  induction letters generalizing cs with
  | nil =>
      cases h
      exact Nat.le_refl _
  | cons c letters ih =>
      cases cs with
      | nil => cases h
      | cons d cs =>
          rw [scanLetters] at h
          split at h
          · exact Nat.le_succ_of_le (ih h)
          · cases h

/-- A whole part takes at least one digit. -/
theorem length_scanWhole {cs ds rest : List Char} (h : scanWhole cs = .ok (ds, rest)) :
    rest.length < cs.length := by
  unfold scanWhole at h
  split at h
  · split at h
    · cases h
      simp
    · split at h <;> cases h
      simp
  · simp only at h
    split at h
    · cases h
    · next hds =>
        cases h
        exact length_dropWhile_lt hds

/-- A fraction takes nothing or more, and never gives characters back. -/
theorem length_scanFraction {cs rest : List Char} {fraction? : Option (List Char)}
    (h : scanFraction cs = .ok (fraction?, rest)) : rest.length ≤ cs.length := by
  unfold scanFraction at h
  split at h
  · simp only at h
    split at h <;> cases h
    exact Nat.le_succ_of_le (length_dropWhile_le ..)
  · cases h
    exact Nat.le_refl _

/-- An exponent takes nothing or more. -/
theorem length_scanExponent {cs rest : List Char} {exponent? : Option Int}
    (h : scanExponent cs = .ok (exponent?, rest)) : rest.length ≤ cs.length := by
  unfold scanExponent at h
  split at h
  · next c more =>
      split at h
      · split at h
        next negative unsigned hsign =>
          have hunsigned : unsigned.length ≤ more.length := by
            split at hsign <;> cases hsign <;> simp
          simp only at h
          split at h <;> cases h
          exact Nat.le_succ_of_le (Nat.le_trans (length_dropWhile_le ..) hunsigned)
      · cases h
        exact Nat.le_refl _
  · cases h
    exact Nat.le_refl _

/-- A number takes at least one character. -/
theorem length_scanNumber {cs rest : List Char} {n : Number}
    (h : scanNumber cs = .ok (n, rest)) : rest.length < cs.length := by
  unfold scanNumber at h
  split at h
  next negative unsigned hsign =>
    have hunsigned : unsigned.length ≤ cs.length := by
      split at hsign <;> cases hsign <;> simp
    obtain ⟨⟨whole, afterWhole⟩, hwhole, h⟩ := bind_eq_ok.mp h
    obtain ⟨⟨fraction?, afterFraction⟩, hfraction, h⟩ := bind_eq_ok.mp h
    obtain ⟨⟨exponent?, rest'⟩, hexponent, h⟩ := bind_eq_ok.mp h
    cases h
    calc rest.length
      _ ≤ afterFraction.length := length_scanExponent hexponent
      _ ≤ afterWhole.length := length_scanFraction hfraction
      _ < unsigned.length := length_scanWhole hwhole
      _ ≤ cs.length := hunsigned

/-- The rest behind a token is no longer than what follows its first character. -/
theorem length_scanToken (c : Char) (rest : List Char) :
    (scanToken c rest).2.length ≤ rest.length := by
  have hcase {p : Prop} [Decidable p] {x y : Token × List Char} (hx : x.2.length ≤ rest.length)
      (hy : y.2.length ≤ rest.length) : (if p then x else y).2.length ≤ rest.length := by
    split <;> assumption
  have hmark (t : Token) : (t, rest).2.length ≤ rest.length := Nat.le_refl _
  refine hcase (hmark _) <| hcase (hmark _) <| hcase (hmark _) <| hcase (hmark _) <|
    hcase (hmark _) <| hcase (hmark _) <| hcase (length_rest_scanString rest) <|
    hcase ?null <| hcase ?true <| hcase ?false <| hcase ?number (Nat.zero_le _)
  case number =>
    split
    · next h => exact Nat.le_of_lt_succ (length_scanNumber h)
    · exact Nat.zero_le _
  all_goals
    dsimp only
    split
    · next h => exact length_scanLetters h
    · exact Nat.zero_le _

/-- **Fuel does not matter** as long as there is a unit of it for each character. -/
theorem scanTokens_congr (fuel fuel' : Nat) (cs : List Char) (h : cs.length ≤ fuel)
    (h' : cs.length ≤ fuel') : scanTokens fuel cs = scanTokens fuel' cs := by
  induction fuel generalizing fuel' cs with
  | zero =>
      obtain rfl := List.length_eq_zero_iff.mp (Nat.le_zero.mp h)
      cases fuel' <;> rfl
  | succ fuel ih =>
      cases cs with
      | nil => cases fuel' <;> rfl
      | cons c rest =>
          obtain ⟨fuel', rfl⟩ := Nat.exists_eq_succ_of_ne_zero (Nat.ne_zero_of_lt h')
          have hrest := Nat.le_of_succ_le_succ h
          have hrest' := Nat.le_of_succ_le_succ h'
          have htoken := length_scanToken c rest
          rw [scanTokens, scanTokens, ih fuel' rest hrest hrest']
          simp only [ih fuel' _ (Nat.le_trans htoken hrest) (Nat.le_trans htoken hrest')]

/-- White space between tokens is dropped. -/
theorem tokens_of_isSpace {c : Char} (rest : List Char) (h : isSpace c = true) :
    tokens (c :: rest) = tokens rest := by
  rw [tokens, List.length_cons, scanTokens, if_pos h, tokens]

/-- **A text is scanned token by token**. -/
theorem tokens_of_scanToken {c : Char} {rest rest' : List Char} {t : Token}
    (hspace : isSpace c = false) (h : scanToken c rest = (t, rest')) :
    tokens (c :: rest) = t :: tokens rest' := by
  have hlength := length_scanToken c rest
  rw [h] at hlength
  rw [tokens, List.length_cons, scanTokens, hspace, h]
  exact congrArg (t :: ·) (scanTokens_congr _ _ rest' hlength (Nat.le_refl _))

/-! ## the tokens of what the writer writes -/

@[simp] theorem tokens_beginArray (rest : List Char) :
    tokens ('[' :: rest) = .beginArray :: tokens rest := tokens_of_scanToken rfl rfl

@[simp] theorem tokens_endArray (rest : List Char) :
    tokens (']' :: rest) = .endArray :: tokens rest := tokens_of_scanToken rfl rfl

@[simp] theorem tokens_beginObject (rest : List Char) :
    tokens ('{' :: rest) = .beginObject :: tokens rest := tokens_of_scanToken rfl rfl

@[simp] theorem tokens_endObject (rest : List Char) :
    tokens ('}' :: rest) = .endObject :: tokens rest := tokens_of_scanToken rfl rfl

@[simp] theorem tokens_colon (rest : List Char) :
    tokens (':' :: rest) = .colon :: tokens rest := tokens_of_scanToken rfl rfl

@[simp] theorem tokens_comma (rest : List Char) :
    tokens (',' :: rest) = .comma :: tokens rest := tokens_of_scanToken rfl rfl

/-- The word `null` is one token. -/
theorem tokens_null (rest : List Char) :
    tokens ('n' :: 'u' :: 'l' :: 'l' :: rest) = .word .null :: tokens rest :=
  tokens_of_scanToken rfl rfl

/-- The words for truth values are one token each. -/
theorem tokens_word (b : Bool) (rest : List Char) :
    tokens (word b ++ rest) = .word (.bool b) :: tokens rest := by
  cases b <;> exact tokens_of_scanToken rfl rfl

@[simp] theorem tokens_space (rest : List Char) : tokens (' ' :: rest) = tokens rest :=
  tokens_of_isSpace rest rfl

/-- A line break and the indent behind it are dropped. -/
@[simp] theorem tokens_newline (level : Nat) (rest : List Char) :
    tokens (newline level ++ rest) = tokens rest := by
  have hspaces (n : Nat) : tokens (List.replicate n ' ' ++ rest) = tokens rest := by
    induction n with
    | zero => rfl
    | succ n ih => rw [List.replicate_succ, List.cons_append, tokens_space, ih]
  rw [newline, List.cons_append, tokens_of_isSpace _ rfl, hspaces]

/-! ### strings -/

/-- The four digits of an escaped control character are read back. -/
theorem hexUnit_hexDigit (n : Nat) (h : n < 0x20) :
    hexUnit? '0' '0' (hexDigit (n / 16)) (hexDigit (n % 16)) = some n := by
  revert n
  decide

/-- A control character is no half of a surrogate pair. -/
theorem Piece.ofUnit_toNat {c : Char} (h : c.toNat < 0x20) : Piece.ofUnit c.toNat = .char c := by
  have hhigh : isHighSurrogate c.toNat = false := by simp [isHighSurrogate]; omega
  have hlow : isLowSurrogate c.toNat = false := by simp [isLowSurrogate]; omega
  rw [ofUnit, hhigh, hlow, Char.ofNat_toNat]
  rfl

/-- An escaped character is read back, whatever follows it. -/
theorem scanString_escapeChar (c : Char) (rest : List Char) :
    scanString (escapeChar c ++ rest) = (scanString rest).push (.char c) := by
  rw [escapeChar]
  split
  · next h => subst h; rfl
  · next hquote =>
      split
      · next h => subst h; rfl
      · next hbackslash =>
          repeat' first | (next h => subst h; rfl) | split
          · next hcontrol =>
              simp only [List.cons_append, List.nil_append, scanString,
                hexUnit_hexDigit _ hcontrol, Piece.ofUnit_toNat hcontrol]
          · next hcontrol =>
              rw [List.singleton_append, scanString]
              · exact if_neg hcontrol
              all_goals intros; contradiction

/-- **An escaped text is read back** up to the quote that ends it. -/
theorem scanString_escape (cs rest : List Char) :
    scanString (escape cs ++ '"' :: rest) = ⟨cs.map .char, none, rest⟩ := by
  induction cs with
  | nil => rfl
  | cons c cs ih =>
      rw [escape_cons, List.append_assoc, scanString_escapeChar, ih]
      rfl

/-- Where there are no surrogates, there is nothing to pair up. -/
theorem pairUp_map_char (cs : List Char) : pairUp (cs.map .char) = some cs := by
  induction cs with
  | nil => rfl
  | cons c cs ih =>
      rw [List.map_cons, pairUp, ih]
      rfl

/-- **A quoted text is one token**, which holds the text. -/
theorem tokens_quote (s : String) (rest : List Char) :
    tokens (quote s ++ rest) = .string ⟨some s⟩ :: tokens rest := by
  have hscan : scanToken '"' (escape s.toList ++ '"' :: rest) = (.string ⟨some s⟩, rest) := by
    have h : scanToken '"' (escape s.toList ++ '"' :: rest) =
        ((scanString (escape s.toList ++ '"' :: rest)).token,
          (scanString (escape s.toList ++ '"' :: rest)).rest) := rfl
    rw [h, scanString_escape]
    simp only [StringScan.token, pairUp_map_char, Option.map_some, String.ofList_toList]
  rw [quote, List.cons_append, List.cons_append, List.append_assoc, List.singleton_append]
  exact tokens_of_scanToken rfl hscan

/-! ### numbers -/

/-- No number goes on with this text. -/
def EndsNumber (rest : List Char) : Prop :=
  ∀ c ∈ rest.head?, isDigit c = false ∧ c ≠ '.' ∧ c ≠ 'e' ∧ c ≠ 'E'

theorem endsNumber_nil : EndsNumber [] := by simp [EndsNumber]

theorem endsNumber_comma (rest : List Char) : EndsNumber (',' :: rest) := by
  simp [EndsNumber]; decide

theorem endsNumber_endArray (rest : List Char) : EndsNumber (']' :: rest) := by
  simp [EndsNumber]; decide

theorem endsNumber_endObject (rest : List Char) : EndsNumber ('}' :: rest) := by
  simp [EndsNumber]; decide

theorem endsNumber_newline (level : Nat) (rest : List Char) :
    EndsNumber (newline level ++ rest) := by
  simp [EndsNumber, newline]; decide

/-- A written number has digits only. -/
theorem isDigit_of_mem_digits {n : Nat} {c : Char} (h : c ∈ digits n) : isDigit c = true := by
  have hdigit := Nat.isDigit_of_mem_toDigits (by decide) (by decide) h
  simpa [Char.isDigit, isDigit, Char.le_def] using hdigit

/-- The digits of a number have its value. -/
theorem ofDigits_digits (n : Nat) : ofDigits (digits n) = n := by
  have h := Nat.ofDigitChars_ten_toDigits (n := n)
  rw [Nat.ofDigitChars_eq_foldl] at h
  simpa only [ofDigits, digits, Nat.mul_comm, Char.reduceToNat] using h

/-- A written number has a first digit, which is zero for zero only. -/
theorem digits_eq_cons (n : Nat) :
    ∃ d ds, digits n = d :: ds ∧ isDigit d = true ∧ (d = '0' → n = 0) := by
  induction n using Nat.strongRecOn with
  | ind n ih =>
      rw [digits, Nat.toDigits_eq_if (by decide)]
      split
      · next hlt =>
          have hdigit : ∀ k < 10, isDigit k.digitChar = true ∧ (k.digitChar = '0' → k = 0) := by
            decide
          exact ⟨n.digitChar, [], rfl, hdigit n hlt⟩
      · next hge =>
          obtain ⟨d, ds, hds, hd, hzero⟩ := ih (n / 10) (by omega)
          rw [digits] at hds
          exact ⟨d, ds ++ [(n % 10).digitChar], by rw [hds, List.cons_append], hd,
            fun h => absurd (hzero h) (by omega)⟩

/-- The digits of a number end where they were written to end. -/
theorem takeWhile_digits (n : Nat) {rest : List Char} (h : EndsNumber rest) :
    (digits n ++ rest).takeWhile isDigit = digits n := by
  have hrest : rest.takeWhile isDigit = [] := by
    cases rest with
    | nil => rfl
    | cons c more => simp [(h c rfl).1]
  rw [List.takeWhile_append_of_pos fun _ => isDigit_of_mem_digits, hrest, List.append_nil]

/-- Behind the digits of a number comes what was written there. -/
theorem dropWhile_digits (n : Nat) {rest : List Char} (h : EndsNumber rest) :
    (digits n ++ rest).dropWhile isDigit = rest := by
  have hrest : rest.dropWhile isDigit = rest := by
    cases rest with
    | nil => rfl
    | cons c more => simp [(h c rfl).1]
  rw [List.dropWhile_append_of_pos fun _ => isDigit_of_mem_digits, hrest]

/-- A written number is a whole part: it starts with zero only if it is zero. -/
theorem scanWhole_digits (n : Nat) {rest : List Char} (h : EndsNumber rest) :
    scanWhole (digits n ++ rest) = .ok (digits n, rest) := by
  obtain ⟨d, ds, hds, -, hzero⟩ := digits_eq_cons n
  by_cases hd : d = '0'
  · rw [hzero hd]
    cases rest with
    | nil => rfl
    | cons c more =>
        have hc : isDigit c = false := (h c rfl).1
        have hscan : scanWhole (digits 0 ++ c :: more) =
            if isDigit c then .error (.always .malformed) else .ok (['0'], c :: more) := rfl
        rw [hscan, hc]
        rfl
  · have hne : digits n ≠ [] := hds ▸ List.cons_ne_nil d ds
    unfold scanWhole
    split
    · next hfirst =>
        rw [hds] at hfirst
        cases hfirst
        exact absurd rfl hd
    · simp only [takeWhile_digits n h, dropWhile_digits n h, if_neg hne]

/-- No fraction starts where a number ends. -/
theorem scanFraction_of_endsNumber {rest : List Char} (h : EndsNumber rest) :
    scanFraction rest = .ok (none, rest) := by
  unfold scanFraction
  split
  · next more => exact absurd rfl (h '.' rfl).2.1
  · rfl

/-- No exponent starts where a number ends. -/
theorem scanExponent_of_endsNumber {rest : List Char} (h : EndsNumber rest) :
    scanExponent rest = .ok (none, rest) := by
  cases rest with
  | nil => rfl
  | cons c more =>
      obtain ⟨-, -, he, hE⟩ := h c rfl
      unfold scanExponent
      exact if_neg (not_or.mpr ⟨he, hE⟩)

/-- **A written number is read back**, without fraction and exponent. -/
theorem scanNumber_digits (n : Nat) {rest : List Char} (h : EndsNumber rest) :
    scanNumber (digits n ++ rest) = .ok (.ofParts false (digits n) none none, rest) := by
  obtain ⟨d, ds, hds, hd, -⟩ := digits_eq_cons n
  have hminus (more : List Char) : digits n ++ rest ≠ '-' :: more := by
    rw [hds]
    rintro h
    cases h
    cases hd
  unfold scanNumber
  split
  next negative unsigned hsign =>
    split at hsign
    · next more heq => exact absurd heq (hminus more)
    · cases hsign
      simp only [scanWhole_digits n h, scanFraction_of_endsNumber h, scanExponent_of_endsNumber h,
        bind, Except.bind, pure, Except.pure]

/-- What a written number is. -/
theorem Number.ofParts_digits {n : Nat} (h : n < UInt64.size) :
    Number.ofParts false (digits n) none none = .natural n := by
  rw [ofParts, ofDigits_digits, if_pos ⟨rfl, rfl, rfl, h⟩]

theorem ne_of_isDigit {c d : Char} (hc : isDigit c = true) (hd : isDigit d = false) : c ≠ d :=
  fun e => Bool.false_ne_true (hd.symm.trans (e ▸ hc))

/-- A digit starts a number. -/
theorem scanToken_of_isDigit {c : Char} (rest : List Char) (h : isDigit c = true) :
    scanToken c rest = match scanNumber (c :: rest) with
      | .ok (n, rest') => (.number n, rest')
      | .error b => (.broken b, []) := by
  unfold scanToken
  rw [if_neg (ne_of_isDigit h rfl), if_neg (ne_of_isDigit h rfl), if_neg (ne_of_isDigit h rfl),
    if_neg (ne_of_isDigit h rfl), if_neg (ne_of_isDigit h rfl), if_neg (ne_of_isDigit h rfl),
    if_neg (ne_of_isDigit h rfl), if_neg (ne_of_isDigit h rfl), if_neg (ne_of_isDigit h rfl),
    if_neg (ne_of_isDigit h rfl)]
  exact if_pos (Or.inr h)

/-- A written number is one token. -/
theorem tokens_digits (n : Nat) {rest : List Char} (h : EndsNumber rest) :
    tokens (digits n ++ rest) =
      .number (.ofParts false (digits n) none none) :: tokens rest := by
  obtain ⟨d, ds, hds, hd, -⟩ := digits_eq_cons n
  have hspace : isSpace d = false := by
    simp [isSpace, ne_of_isDigit hd (d := ' ') rfl, ne_of_isDigit hd (d := '\t') rfl,
      ne_of_isDigit hd (d := '\n') rfl, ne_of_isDigit hd (d := '\r') rfl]
  have hscan := scanToken_of_isDigit (ds ++ rest) hd
  rw [← List.cons_append, ← hds, scanNumber_digits n h] at hscan
  calc tokens (digits n ++ rest)
    _ = tokens (d :: (ds ++ rest)) := by rw [hds, List.cons_append]
    _ = _ := tokens_of_scanToken hspace hscan

/-! ## the tokens of a value -/

mutual

/-- The tokens of a value. -/
def tokensOf : Json → List Token
  | .null => [.word .null]
  | .bool b => [.word (.bool b)]
  | .number n => [.number (.ofParts false (digits n) none none)]
  | .string s => [.string ⟨some s⟩]
  | .array items => .beginArray :: tokensOfItems items ++ [.endArray]
  | .object members => .beginObject :: tokensOfMembers members ++ [.endObject]
termination_by structural v => v

/-- The tokens of the elements of an array. -/
def tokensOfItems : List Json → List Token
  | [] => []
  | [v] => tokensOf v
  | v :: more => tokensOf v ++ .comma :: tokensOfItems more
termination_by structural vs => vs

/-- The tokens of the members of an object. -/
def tokensOfMembers : List (String × Json) → List Token
  | [] => []
  | [m] => tokensOfMember m
  | m :: more => tokensOfMember m ++ .comma :: tokensOfMembers more
termination_by structural ms => ms

/-- The tokens of a member of an object. -/
def tokensOfMember : String × Json → List Token
  | (key, v) => .string ⟨some key⟩ :: .colon :: tokensOf v
termination_by structural m => m

end

mutual

/-- **The compact form has the tokens of its value**. -/
theorem tokens_writeCompact (v : Json) {rest : List Char} (h : EndsNumber rest) :
    tokens (writeCompact v ++ rest) = tokensOf v ++ tokens rest := by
  cases v with
  | null => exact tokens_null rest
  | bool b => exact tokens_word b rest
  | number n => exact tokens_digits n h
  | string s => exact tokens_quote s rest
  | array items =>
      simp [writeCompact, tokensOf, tokens_writeCompactItems items (endsNumber_endArray rest)]
  | object members =>
      simp [writeCompact, tokensOf, tokens_writeCompactMembers members (endsNumber_endObject rest)]

/-- The items of an array, by the tokens of each. -/
theorem tokens_writeCompactItems (items : List Json) {rest : List Char} (h : EndsNumber rest) :
    tokens (writeCompactItems items ++ rest) = tokensOfItems items ++ tokens rest := by
  match items with
  | [] => rfl
  | [v] => exact tokens_writeCompact v h
  | v :: w :: more =>
      simp [writeCompactItems, tokensOfItems, tokens_writeCompact v (endsNumber_comma _),
        tokens_writeCompactItems (w :: more) h]

/-- The members of an object, by the tokens of each. -/
theorem tokens_writeCompactMembers (members : List (String × Json)) {rest : List Char}
    (h : EndsNumber rest) :
    tokens (writeCompactMembers members ++ rest) = tokensOfMembers members ++ tokens rest := by
  match members with
  | [] => rfl
  | [m] => exact tokens_writeCompactMember m h
  | m :: n :: more =>
      simp [writeCompactMembers, tokensOfMembers, tokens_writeCompactMember m (endsNumber_comma _),
        tokens_writeCompactMembers (n :: more) h]

/-- A member is its key, a colon and the tokens of its value. -/
theorem tokens_writeCompactMember (m : String × Json) {rest : List Char} (h : EndsNumber rest) :
    tokens (writeCompactMember m ++ rest) = tokensOfMember m ++ tokens rest := by
  obtain ⟨key, v⟩ := m
  simp [writeCompactMember, tokensOfMember, tokens_quote, tokens_writeCompact v h]

end

mutual

/-- **The indented form has the tokens of its value**, whatever the level. -/
theorem tokens_writePretty (level : Nat) (v : Json) {rest : List Char} (h : EndsNumber rest) :
    tokens (writePretty level v ++ rest) = tokensOf v ++ tokens rest := by
  match v with
  | .null => exact tokens_null rest
  | .bool b => exact tokens_word b rest
  | .number n => exact tokens_digits n h
  | .string s => exact tokens_quote s rest
  | .array [] => simp [writePretty, tokensOf, tokensOfItems]
  | .array (v :: more) =>
      simp [writePretty, tokensOf,
        tokens_writePrettyItems (level + 1) (v :: more) (endsNumber_newline level _)]
  | .object [] => simp [writePretty, tokensOf, tokensOfMembers]
  | .object (m :: more) =>
      simp [writePretty, tokensOf,
        tokens_writePrettyMembers (level + 1) (m :: more) (endsNumber_newline level _)]

/-- Items on lines of their own have the same tokens. -/
theorem tokens_writePrettyItems (level : Nat) (items : List Json) {rest : List Char}
    (h : EndsNumber rest) :
    tokens (writePrettyItems level items ++ rest) = tokensOfItems items ++ tokens rest := by
  match items with
  | [] => rfl
  | [v] => simp [writePrettyItems, tokensOfItems, tokens_writePretty level v h]
  | v :: w :: more =>
      simp [writePrettyItems, tokensOfItems, tokens_writePretty level v (endsNumber_comma _),
        tokens_writePrettyItems level (w :: more) h]

/-- Members on lines of their own have the same tokens. -/
theorem tokens_writePrettyMembers (level : Nat) (members : List (String × Json))
    {rest : List Char} (h : EndsNumber rest) :
    tokens (writePrettyMembers level members ++ rest) = tokensOfMembers members ++ tokens rest := by
  match members with
  | [] => rfl
  | [m] => simp [writePrettyMembers, tokensOfMembers, tokens_writePrettyMember level m h]
  | m :: n :: more =>
      simp [writePrettyMembers, tokensOfMembers,
        tokens_writePrettyMember level m (endsNumber_comma _),
        tokens_writePrettyMembers level (n :: more) h]

/-- A member has the same tokens with a blank behind its colon. -/
theorem tokens_writePrettyMember (level : Nat) (m : String × Json) {rest : List Char}
    (h : EndsNumber rest) :
    tokens (writePrettyMember level m ++ rest) = tokensOfMember m ++ tokens rest := by
  obtain ⟨key, v⟩ := m
  simp [writePrettyMember, tokensOfMember, tokens_quote, tokens_writePretty level v h]

end

/-! ## the reading of a value -/

mutual

/-- The reading of a written value at a level of nesting. -/
def readingAt (level : Nat) : Json → Reading
  | .null => .null
  | .bool b => .bool b
  | .number n => .number (.ofParts false (digits n) none none)
  | .string s => .string ⟨some s⟩
  | .array items => .array (decide (nestingLimit ≤ level)) (itemsAt (level + 1) items) .closed
  | .object members =>
    .object (decide (nestingLimit ≤ level)) (membersAt (level + 1) members) .closed
termination_by structural v => v

/-- The readings of the elements of an array. -/
def itemsAt (level : Nat) : List Json → List Reading
  | [] => []
  | v :: more => readingAt level v :: itemsAt level more
termination_by structural vs => vs

/-- The readings of the members of an object. -/
def membersAt (level : Nat) : List (String × Json) → List (Quoted × Reading)
  | [] => []
  | m :: more => memberAt level m :: membersAt level more
termination_by structural ms => ms

/-- The reading of a member of an object. -/
def memberAt (level : Nat) : String × Json → Quoted × Reading
  | (key, v) => (⟨some key⟩, readingAt level v)
termination_by structural m => m

end

/-- The tokens of a value start with one that no closing bracket is. -/
theorem tokensOf_eq_cons (v : Json) :
    ∃ t ts, tokensOf v = t :: ts ∧ t ≠ .endArray := by
  cases v <;> exact ⟨_, _, rfl, nofun⟩

/-- The tokens of items do not start by closing the array. -/
theorem tokensOfItems_eq_cons (v : Json) (more : List Json) :
    ∃ t ts, tokensOfItems (v :: more) = t :: ts ∧ t ≠ .endArray := by
  obtain ⟨t, ts, hts, ht⟩ := tokensOf_eq_cons v
  cases more with
  | nil => exact ⟨t, ts, hts, ht⟩
  | cons w more => exact ⟨t, _, by rw [tokensOfItems, hts, List.cons_append]; simp, ht⟩

/-- The tokens of members start with a key. -/
theorem tokensOfMembers_eq_cons (m : String × Json) (more : List (String × Json)) :
    ∃ ts, tokensOfMembers (m :: more) = .string ⟨some m.1⟩ :: ts := by
  obtain ⟨key, v⟩ := m
  cases more with
  | nil => exact ⟨_, rfl⟩
  | cons n more => exact ⟨_, rfl⟩

/-- An array that is not closed at once is read item by item. -/
theorem readValue_beginArray {fuel level : Nat} {t : Token} (ts : List Token)
    (h : t ≠ .endArray) :
    readValue (fuel + 1) level (.beginArray :: t :: ts) =
      (.array (decide (nestingLimit ≤ level)) (readItems fuel (level + 1) (t :: ts)).1
        (readItems fuel (level + 1) (t :: ts)).2.1,
        (readItems fuel (level + 1) (t :: ts)).2.2) := by
  cases t <;> first | rfl | exact absurd rfl h

/-- An object that starts with a key is read member by member. -/
theorem readValue_beginObject {fuel level : Nat} {key : Quoted} (ts : List Token) :
    readValue (fuel + 1) level (.beginObject :: .string key :: ts) =
      (.object (decide (nestingLimit ≤ level))
        (readMembers fuel (level + 1) (.string key :: ts)).1
        (readMembers fuel (level + 1) (.string key :: ts)).2.1,
        (readMembers fuel (level + 1) (.string key :: ts)).2.2) := rfl

mutual

/-- **The reader finds a value in its tokens**, and leaves what follows. -/
theorem readValue_tokensOf (fuel level : Nat) (v : Json) (rest : List Token)
    (h : 2 * (tokensOf v).length ≤ fuel) :
    readValue fuel level (tokensOf v ++ rest) = (readingAt level v, rest) := by
  match v with
  | .null | .bool _ | .number _ | .string _ =>
      simp only [tokensOf, List.length_singleton] at h
      obtain ⟨fuel, rfl⟩ := Nat.exists_eq_add_of_le' h
      rfl
  | .array [] | .object [] =>
      simp only [tokensOf, List.length_cons, List.length_append] at h
      obtain ⟨fuel, rfl⟩ := Nat.exists_eq_add_of_le' (by omega : 1 ≤ fuel)
      rfl
  | .array (v :: more) =>
      obtain ⟨t, ts, hts, ht⟩ := tokensOfItems_eq_cons v more
      simp only [tokensOf, List.length_cons, List.length_append, List.length_nil] at h
      obtain ⟨fuel, rfl⟩ := Nat.exists_eq_add_of_le' (by omega : 1 ≤ fuel)
      have hitems := readItems_tokensOf fuel (level + 1) v more rest (by omega)
      rw [hts, List.cons_append] at hitems
      rw [tokensOf, List.append_assoc, List.cons_append, List.singleton_append, hts,
        List.cons_append, readValue_beginArray _ ht, hitems]
      rfl
  | .object (m :: more) =>
      obtain ⟨ts, hts⟩ := tokensOfMembers_eq_cons m more
      simp only [tokensOf, List.length_cons, List.length_append, List.length_nil] at h
      obtain ⟨fuel, rfl⟩ := Nat.exists_eq_add_of_le' (by omega : 1 ≤ fuel)
      have hmembers := readMembers_tokensOf fuel (level + 1) m more rest (by omega)
      rw [hts, List.cons_append] at hmembers
      rw [tokensOf, List.append_assoc, List.cons_append, List.singleton_append, hts,
        List.cons_append, readValue_beginObject, hmembers]
      rfl

/-- The items of an array are read back up to its end, if there is fuel for their tokens. -/
theorem readItems_tokensOf (fuel level : Nat) (v : Json) (more : List Json) (rest : List Token)
    (h : 2 * (tokensOfItems (v :: more)).length + 1 ≤ fuel) :
    readItems fuel level (tokensOfItems (v :: more) ++ .endArray :: rest) =
      (itemsAt level (v :: more), .closed, rest) := by
  obtain ⟨fuel, rfl⟩ := Nat.exists_eq_add_of_le' (by omega : 1 ≤ fuel)
  match more with
  | [] =>
      rw [tokensOfItems] at h ⊢
      rw [readItems, readValue_tokensOf fuel level v _ (by omega)]
      rfl
  | w :: more =>
      simp only [tokensOfItems, List.length_append, List.length_cons] at h
      have hvalue := readValue_tokensOf fuel level v
        (.comma :: (tokensOfItems (w :: more) ++ .endArray :: rest)) (by omega)
      have hitems := readItems_tokensOf fuel level w more rest (by omega)
      rw [tokensOfItems, List.append_assoc, List.cons_append, readItems, hvalue]
      · simp only [hitems, itemsAt]
      · exact nofun

/-- The members of an object are read back up to its end, likewise. -/
theorem readMembers_tokensOf (fuel level : Nat) (m : String × Json) (more : List (String × Json))
    (rest : List Token) (h : 2 * (tokensOfMembers (m :: more)).length + 1 ≤ fuel) :
    readMembers fuel level (tokensOfMembers (m :: more) ++ .endObject :: rest) =
      (membersAt level (m :: more), .closed, rest) := by
  obtain ⟨fuel, rfl⟩ := Nat.exists_eq_add_of_le' (by omega : 1 ≤ fuel)
  obtain ⟨key, v⟩ := m
  match more with
  | [] =>
      simp only [tokensOfMembers, tokensOfMember, List.length_cons] at h
      rw [tokensOfMembers, tokensOfMember, List.cons_append, List.cons_append, readMembers,
        readValue_tokensOf fuel level v _ (by omega)]
      rfl
  | n :: more =>
      simp only [tokensOfMembers, tokensOfMember, List.length_append, List.length_cons] at h
      have hvalue := readValue_tokensOf fuel level v
        (.comma :: (tokensOfMembers (n :: more) ++ .endObject :: rest)) (by omega)
      have hmembers := readMembers_tokensOf fuel level n more rest (by omega)
      rw [tokensOfMembers, tokensOfMember, List.append_assoc, List.cons_append, List.cons_append,
        List.cons_append, readMembers, hvalue]
      · simp only [hmembers, membersAt, memberAt]
      · exact nofun

end

/-- A text is read by its tokens alone. -/
theorem read_of_tokens {v : Json} {text : String} (h : tokens text.toList = tokensOf v) :
    read text = (readingAt 0 v, false) := by
  have hvalue := readValue_tokensOf (2 * (tokensOf v).length + 1) 0 v [] (Nat.le_succ _)
  rw [List.append_nil] at hvalue
  rw [read, h]
  simp only [hvalue, List.isEmpty_nil, Bool.not_true]

/-- **The compact form is read as the value**, with nothing behind it. -/
theorem read_compact (v : Json) : read v.compact = (readingAt 0 v, false) := by
  have h := tokens_writeCompact v endsNumber_nil
  refine read_of_tokens ?_
  rw [compact, String.toList_ofList, ← List.append_nil (writeCompact v), h]
  exact List.append_nil _

/-- **The indented form is read as the value**, with nothing behind it. -/
theorem read_pretty (v : Json) : read v.pretty = (readingAt 0 v, false) := by
  have h := tokens_writePretty 0 v endsNumber_nil
  refine read_of_tokens ?_
  rw [pretty, String.toList_ofList, ← List.append_nil (writePretty 0 v), h]
  exact List.append_nil _

/-- A text is decoded by what is read in it. -/
theorem decode_of_read {α : Type} (d : Decoder α) {v : Json} {text : String}
    (h : read text = (readingAt 0 v, false)) : decode d text = d (readingAt 0 v) := by
  rw [decode, h]
  dsimp only
  cases d (readingAt 0 v) <;> rfl

/-- **What is written on one line** is decoded as the value itself. -/
theorem decode_compact {α : Type} (d : Decoder α) (v : Json) :
    decode d v.compact = d (readingAt 0 v) := decode_of_read d (read_compact v)

/-- **What is written on many lines** is decoded as the value itself. -/
theorem decode_pretty {α : Type} (d : Decoder α) (v : Json) :
    decode d v.pretty = d (readingAt 0 v) := decode_of_read d (read_pretty v)

end BindingSynthesis.Json
