import BindingSynthesis.Proofs.JsonText

/-!
# BindingSynthesis.Proofs.JsonGrammar

The grammar of JSON texts, and the reading of what it derives.

```
value   null  true  false  number  "string"
        [ value , … , value ]
        { "key" : value , … , "key" : value }
```

1. White space may stand around every value and every key.  A string holds characters
   other than the quote, the backslash and the control characters, and the known escapes
   (`IsStringBody`); unless a surrogate in it is unpaired, it spells a text (`Spells`).
2. The tokens of a derived text do not depend on what follows, as long as no number goes
   on there (`Reads.tokens_append`).
3. A derived text is read to its end as a value, at any level of nesting, and can be
   skipped (`IsValue.reads`, `IsValue.skip_readingOf`).
-/

namespace BindingSynthesis.Json

open Text

/-! ## the grammar -/

/-- White space between tokens. -/
def IsSpaces (cs : List Char) : Prop := ∀ c ∈ cs, isSpace c = true

/-- The character stands for itself in a string. -/
def isPlain (c : Char) : Bool := c ≠ '"' && c ≠ '\\' && 0x20 ≤ c.toNat

/-- What may stand between the quotes of a string. -/
inductive IsStringBody : List Char → Prop
  | nil : IsStringBody []
  | plain {c : Char} {raw : List Char} (hc : isPlain c = true) (h : IsStringBody raw) :
    IsStringBody (c :: raw)
  | letter {c e : Char} {raw : List Char} (he : escaped? c = some e) (h : IsStringBody raw) :
    IsStringBody ('\\' :: c :: raw)
  | unit {a b c d : Char} {n : Nat} {raw : List Char} (hn : hexUnit? a b c d = some n)
    (h : IsStringBody raw) : IsStringBody ('\\' :: 'u' :: a :: b :: c :: d :: raw)

/-- The text that is written between the quotes of a string without unpaired surrogates. -/
inductive Spells : List Char → List Char → Prop
  | nil : Spells [] []
  | plain {c : Char} {raw text : List Char} (hc : isPlain c = true) (h : Spells raw text) :
    Spells (c :: raw) (c :: text)
  | letter {c e : Char} {raw text : List Char} (he : escaped? c = some e) (h : Spells raw text) :
    Spells ('\\' :: c :: raw) (e :: text)
  | unit {a b c d : Char} {n : Nat} {raw text : List Char} (hn : hexUnit? a b c d = some n)
    (hhigh : isHighSurrogate n = false) (hlow : isLowSurrogate n = false) (h : Spells raw text) :
    Spells ('\\' :: 'u' :: a :: b :: c :: d :: raw) (Char.ofNat n :: text)
  | pair {a b c d a' b' c' d' : Char} {high low : Nat} {raw text : List Char}
    (hn : hexUnit? a b c d = some high) (hn' : hexUnit? a' b' c' d' = some low)
    (hhigh : isHighSurrogate high = true) (hlow : isLowSurrogate low = true)
    (h : Spells raw text) :
    Spells ('\\' :: 'u' :: a :: b :: c :: d :: '\\' :: 'u' :: a' :: b' :: c' :: d' :: raw)
      (ofSurrogates high low :: text)

/-- One digit or more. -/
def IsDigits (cs : List Char) : Prop := cs ≠ [] ∧ ∀ c ∈ cs, isDigit c = true

/-- The whole part of a number, without a zero in front of other digits. -/
def IsWhole (cs : List Char) : Prop := cs = ['0'] ∨ IsDigits cs ∧ cs.head? ≠ some '0'

/-- The fraction of a number, or nothing. -/
def IsFraction (cs : List Char) : Prop := cs = [] ∨ ∃ ds, IsDigits ds ∧ cs = '.' :: ds

/-- The exponent of a number, or nothing. -/
def IsExponent (cs : List Char) : Prop :=
  cs = [] ∨ ∃ e sign ds, (e = 'e' ∨ e = 'E') ∧ (sign = [] ∨ sign = ['-'] ∨ sign = ['+']) ∧
    IsDigits ds ∧ cs = e :: (sign ++ ds)

/-- A written number. -/
def IsNumber (cs : List Char) : Prop :=
  ∃ sign whole fraction exponent, (sign = [] ∨ sign = ['-']) ∧ IsWhole whole ∧
    IsFraction fraction ∧ IsExponent exponent ∧ cs = sign ++ (whole ++ (fraction ++ exponent))

/-- A text with white space around it. -/
structure Padded where
  before : List Char
  inner : List Char
  after : List Char
  isSpaces_before : IsSpaces before
  isSpaces_after : IsSpaces after

def Padded.text (p : Padded) : List Char := p.before ++ (p.inner ++ p.after)

/-- A member of an object: what stands between the quotes of its key, and its value. -/
structure Member where
  before : List Char
  key : List Char
  behindKey : List Char
  value : Padded
  isSpaces_before : IsSpaces before
  isStringBody_key : IsStringBody key
  isSpaces_behindKey : IsSpaces behindKey

/-- A string, with its quotes. -/
def stringText (raw : List Char) : List Char := '"' :: (raw ++ ['"'])

def Member.text (m : Member) : List Char :=
  m.before ++ (stringText m.key ++ (m.behindKey ++ ':' :: m.value.text))

/-- An array; the white space is all that an empty one holds. -/
def arrayText (space : List Char) (items : List Padded) : List Char :=
  '[' :: (space ++ ([','].intercalate (items.map Padded.text) ++ [']']))

/-- An object; the white space is all that an empty one holds. -/
def objectText (space : List Char) (members : List Member) : List Char :=
  '{' :: (space ++ ([','].intercalate (members.map Member.text) ++ ['}']))

/-- A JSON value. -/
inductive IsValue : List Char → Prop
  | null : IsValue ['n', 'u', 'l', 'l']
  | word (b : Bool) : IsValue (word b)
  | number {cs : List Char} (h : IsNumber cs) : IsValue cs
  | string {raw : List Char} (h : IsStringBody raw) : IsValue (stringText raw)
  | array {space : List Char} {items : List Padded} (hspace : IsSpaces space)
    (h : ∀ i ∈ items, IsValue i.inner) : IsValue (arrayText space items)
  | object {space : List Char} {members : List Member} (hspace : IsSpaces space)
    (h : ∀ m ∈ members, IsValue m.value.inner) : IsValue (objectText space members)

/-! ## white space -/

theorem isSpaces_nil : IsSpaces [] := List.forall_mem_nil _

/-- White space in front of tokens is dropped. -/
theorem tokens_spaces {space : List Char} (h : IsSpaces space) (rest : List Char) :
    tokens (space ++ rest) = tokens rest := by
  induction space with
  | nil => rfl
  | cons c space ih =>
      obtain ⟨hc, hspace⟩ := List.forall_mem_cons.mp h
      rw [List.cons_append, tokens_of_isSpace _ hc, ih hspace]

/-- A number ends in front of white space. -/
theorem endsNumber_spaces {space rest : List Char} (h : IsSpaces space) (hrest : EndsNumber rest) :
    EndsNumber (space ++ rest) := by
  cases space with
  | nil => exact hrest
  | cons c space =>
      have hc := (List.forall_mem_cons.mp h).1
      intro d hd
      cases hd
      simp only [isSpace, Bool.or_eq_true, decide_eq_true_eq] at hc
      obtain ((rfl | rfl) | rfl) | rfl := hc <;> decide

/-! ## strings -/

/-- A plain character is no quote, no backslash and no control character. -/
theorem isPlain_iff {c : Char} :
    isPlain c = true ↔ c ≠ '"' ∧ c ≠ '\\' ∧ 0x20 ≤ c.toNat := by
  simp [isPlain, and_assoc]

/-- A plain character stands for itself. -/
theorem scanString_plain {c : Char} (hc : isPlain c = true) (cs : List Char) :
    scanString (c :: cs) = (scanString cs).push (.char c) := by
  obtain ⟨hquote, hbackslash, hcontrol⟩ := isPlain_iff.mp hc
  rw [scanString]
  · exact if_neg (Nat.not_lt.mpr hcontrol)
  all_goals intros; contradiction

/-- A backslash and a letter stand for one character. -/
theorem scanString_letter {c e : Char} (he : escaped? c = some e) (cs : List Char) :
    scanString ('\\' :: c :: cs) = (scanString cs).push (.char e) := by
  unfold escaped? at he
  repeat' first | (next h => subst h; cases he; rfl) | cases he | split at he

/-- A backslash, `u` and four digits stand for a code unit. -/
theorem scanString_unit {a b c d : Char} {n : Nat} (hn : hexUnit? a b c d = some n)
    (cs : List Char) :
    scanString ('\\' :: 'u' :: a :: b :: c :: d :: cs) = (scanString cs).push (.ofUnit n) := by
  rw [scanString, hn]

/-- The string between these quotes. -/
def quotedOf (raw : List Char) : Quoted :=
  ⟨(pairUp (scanString (raw ++ ['"'])).pieces).map String.ofList⟩

/-- A string ends at its quote, whatever follows. -/
theorem scanString_body {raw : List Char} (h : IsStringBody raw) (rest : List Char) :
    scanString (raw ++ '"' :: rest) = ⟨(scanString (raw ++ ['"'])).pieces, none, rest⟩ := by
  induction h with
  | nil => rfl
  | plain hc _ ih => simp only [List.cons_append, scanString_plain hc, ih, StringScan.push]
  | letter he _ ih => simp only [List.cons_append, scanString_letter he, ih, StringScan.push]
  | unit hn _ ih => simp only [List.cons_append, scanString_unit hn, ih, StringScan.push]

/-- **The text of a string** is one token. -/
theorem tokens_stringText {raw : List Char} (h : IsStringBody raw) (rest : List Char) :
    tokens (stringText raw ++ rest) = .string (quotedOf raw) :: tokens rest := by
  rw [stringText, List.cons_append, List.append_assoc, List.singleton_append]
  refine tokens_of_scanToken rfl ?_
  have hscan := scanString_body h rest
  calc scanToken '"' (raw ++ '"' :: rest)
    _ = ((scanString (raw ++ '"' :: rest)).token, (scanString (raw ++ '"' :: rest)).rest) := rfl
    _ = (.string (quotedOf raw), rest) := by rw [hscan]; rfl

/-- A code unit that is no surrogate is a character. -/
theorem Piece.ofUnit_of_not_surrogate {n : Nat} (hhigh : isHighSurrogate n = false)
    (hlow : isLowSurrogate n = false) : ofUnit n = .char (Char.ofNat n) := by
  rw [ofUnit, hhigh, hlow]
  rfl

/-- A surrogate waits for its other half. -/
theorem Piece.ofUnit_of_surrogate {n : Nat} (h : (isHighSurrogate n || isLowSurrogate n) = true) :
    ofUnit n = .surrogate n := if_pos h

/-- The pieces of a string that spells a text are paired up to that text. -/
theorem pairUp_of_spells {raw text : List Char} (h : Spells raw text) :
    pairUp (scanString (raw ++ ['"'])).pieces = some text := by
  induction h with
  | nil => rfl
  | plain hc _ ih =>
      simp only [List.cons_append, scanString_plain hc, StringScan.push, pairUp, ih,
        Option.map_some]
  | letter he _ ih =>
      simp only [List.cons_append, scanString_letter he, StringScan.push, pairUp, ih,
        Option.map_some]
  | unit hn hhigh hlow _ ih =>
      simp only [List.cons_append, scanString_unit hn, StringScan.push,
        Piece.ofUnit_of_not_surrogate hhigh hlow, pairUp, ih, Option.map_some]
  | pair hn hn' hhigh hlow _ ih =>
      simp only [List.cons_append, scanString_unit hn, scanString_unit hn', StringScan.push,
        Piece.ofUnit_of_surrogate (Bool.or_eq_true_iff.mpr (.inl hhigh)),
        Piece.ofUnit_of_surrogate (Bool.or_eq_true_iff.mpr (.inr hlow)), pairUp, hhigh, hlow,
        Bool.and_self, if_true, ih, Option.map_some]

/-- A string is the text that it spells. -/
theorem quotedOf_of_spells {raw : List Char} {name : String} (h : Spells raw name.toList) :
    quotedOf raw = ⟨some name⟩ := by
  rw [quotedOf, pairUp_of_spells h, Option.map_some, String.ofList_toList]

/-- A text of plain characters spells itself. -/
theorem spells_self {cs : List Char} (h : cs.all isPlain = true) : Spells cs cs := by
  induction cs with
  | nil => exact .nil
  | cons c cs ih =>
      obtain ⟨hc, hmore⟩ := List.forall_mem_cons.mp (List.all_eq_true.mp h)
      exact .plain hc (ih (List.all_eq_true.mpr hmore))

/-- What spells a text may stand in a string. -/
theorem Spells.isStringBody {raw text : List Char} (h : Spells raw text) : IsStringBody raw := by
  induction h with
  | nil => exact .nil
  | plain hc _ ih => exact .plain hc ih
  | letter he _ ih => exact .letter he ih
  | unit hn _ _ _ ih => exact .unit hn ih
  | pair hn hn' _ _ _ ih => exact .unit hn (.unit hn' ih)

/-! ## numbers -/

/-- No digits go on with this text. -/
def EndsDigits (rest : List Char) : Prop := ∀ c ∈ rest.head?, isDigit c = false

/-- Neither digits nor a fraction go on with this text. -/
def EndsFraction (rest : List Char) : Prop := ∀ c ∈ rest.head?, isDigit c = false ∧ c ≠ '.'

/-- Where a fraction may end, digits may. -/
theorem EndsFraction.endsDigits {rest : List Char} (h : EndsFraction rest) : EndsDigits rest :=
  fun c hc => (h c hc).1

/-- An exponent ends the fraction in front of it. -/
theorem IsExponent.endsFraction {exponent rest : List Char} (h : IsExponent exponent)
    (hrest : EndsNumber rest) : EndsFraction (exponent ++ rest) := by
  obtain rfl | ⟨e, sign, ds, he, -, -, rfl⟩ := h
  · exact fun c hc => ⟨(hrest c hc).1, (hrest c hc).2.1⟩
  · intro c hc
    cases hc
    obtain rfl | rfl := he <;> decide

/-- A fraction ends the digits in front of it. -/
theorem IsFraction.endsDigits {fraction rest : List Char} (h : IsFraction fraction)
    (hrest : EndsFraction rest) : EndsDigits (fraction ++ rest) := by
  obtain rfl | ⟨ds, -, rfl⟩ := h
  · exact hrest.endsDigits
  · intro c hc
    cases hc
    decide

/-- Digits are taken up to where they end. -/
theorem takeWhile_isDigits {ds rest : List Char} (h : IsDigits ds) (hrest : EndsDigits rest) :
    (ds ++ rest).takeWhile isDigit = ds := by
  have hnone : rest.takeWhile isDigit = [] := by
    cases rest with
    | nil => rfl
    | cons c more => simp [hrest c rfl]
  rw [List.takeWhile_append_of_pos h.2, hnone, List.append_nil]

/-- Behind the digits comes what ends them. -/
theorem dropWhile_isDigits {ds rest : List Char} (h : IsDigits ds) (hrest : EndsDigits rest) :
    (ds ++ rest).dropWhile isDigit = rest := by
  have hall : rest.dropWhile isDigit = rest := by
    cases rest with
    | nil => rfl
    | cons c more => simp [hrest c rfl]
  rw [List.dropWhile_append_of_pos h.2, hall]

/-- A whole part of the grammar is read as one. -/
theorem scanWhole_of_isWhole {whole rest : List Char} (h : IsWhole whole)
    (hrest : EndsDigits rest) : scanWhole (whole ++ rest) = .ok (whole, rest) := by
  obtain rfl | ⟨hdigits, hzero⟩ := h
  · cases rest with
    | nil => rfl
    | cons c more => exact if_neg (Bool.not_eq_true _ ▸ hrest c rfl)
  · unfold scanWhole
    split
    · next more heq =>
        obtain ⟨c, ds, rfl⟩ := List.exists_cons_of_ne_nil hdigits.1
        cases heq
        exact absurd rfl hzero
    · simp only [takeWhile_isDigits hdigits hrest, dropWhile_isDigits hdigits hrest,
        if_neg hdigits.1]

/-- Which fraction is found does not depend on what follows. -/
theorem scanFraction_of_isFraction {fraction : List Char} (h : IsFraction fraction) :
    ∃ fraction?, ∀ rest, EndsFraction rest →
      scanFraction (fraction ++ rest) = .ok (fraction?, rest) := by
  obtain rfl | ⟨ds, hdigits, rfl⟩ := h
  · refine ⟨none, fun rest hrest => ?_⟩
    rw [List.nil_append, scanFraction.eq_def]
    split
    · next more => exact absurd rfl (hrest '.' rfl).2
    · rfl
  · refine ⟨some ds, fun rest hrest => ?_⟩
    simp only [List.cons_append, scanFraction, takeWhile_isDigits hdigits hrest.endsDigits,
      dropWhile_isDigits hdigits hrest.endsDigits, if_neg hdigits.1]

/-- Which exponent is found does not depend on what follows. -/
theorem scanExponent_of_isExponent {exponent : List Char} (h : IsExponent exponent) :
    ∃ exponent?, ∀ rest, EndsNumber rest →
      scanExponent (exponent ++ rest) = .ok (exponent?, rest) := by
  obtain rfl | ⟨e, sign, ds, he, hsign, hdigits, rfl⟩ := h
  · exact ⟨none, fun rest hrest => scanExponent_of_endsNumber hrest⟩
  · have hends {rest : List Char} (hrest : EndsNumber rest) : EndsDigits rest :=
      fun c hc => (hrest c hc).1
    obtain ⟨d, more, rfl⟩ := List.exists_cons_of_ne_nil hdigits.1
    have hd : isDigit d = true := hdigits.2 d List.mem_cons_self
    have hminus : d ≠ '-' := ne_of_isDigit hd rfl
    have hplus : d ≠ '+' := ne_of_isDigit hd rfl
    refine ⟨some (if sign = ['-'] then -(ofDigits (d :: more) : Int) else ofDigits (d :: more)),
      fun rest hrest => ?_⟩
    have htake := takeWhile_isDigits hdigits (hends hrest)
    have hdrop := dropWhile_isDigits hdigits (hends hrest)
    rw [List.cons_append] at htake hdrop
    obtain rfl | rfl | rfl := hsign
    · simp only [List.nil_append, List.cons_append, scanExponent, if_pos he]
      split
      · next heq => exact absurd (List.cons.inj heq).1 hminus
      · next heq => exact absurd (List.cons.inj heq).1 hplus
      · simp [htake, hdrop]
    · simp [scanExponent, he, htake, hdrop]
    · simp [scanExponent, he, htake, hdrop]

/-- A whole part starts with a digit. -/
theorem IsWhole.eq_cons {whole : List Char} (h : IsWhole whole) :
    ∃ d ds, whole = d :: ds ∧ isDigit d = true := by
  obtain rfl | ⟨hdigits, -⟩ := h
  · exact ⟨'0', [], rfl, rfl⟩
  · obtain ⟨d, ds, rfl⟩ := List.exists_cons_of_ne_nil hdigits.1
    exact ⟨d, ds, rfl, hdigits.2 d List.mem_cons_self⟩

/-- Which number is found does not depend on what follows. -/
theorem scanNumber_of_isNumber {cs : List Char} (h : IsNumber cs) :
    ∃ n, ∀ rest, EndsNumber rest → scanNumber (cs ++ rest) = .ok (n, rest) := by
  obtain ⟨sign, whole, fraction, exponent, hsign, hwhole, hfraction, hexponent, rfl⟩ := h
  obtain ⟨fraction?, hscanFraction⟩ := scanFraction_of_isFraction hfraction
  obtain ⟨exponent?, hscanExponent⟩ := scanExponent_of_isExponent hexponent
  refine ⟨.ofParts (decide (sign = ['-'])) whole fraction? exponent?, fun rest hrest => ?_⟩
  have hends := hexponent.endsFraction hrest
  have hscanWhole := scanWhole_of_isWhole hwhole (hfraction.endsDigits hends)
  obtain ⟨d, ds, rfl, hd⟩ := hwhole.eq_cons
  simp only [List.append_assoc]
  obtain rfl | rfl := hsign
  · unfold scanNumber
    split
    next negative unsigned heq =>
      split at heq
      · next more hfirst => exact absurd (List.cons.inj hfirst).1 (ne_of_isDigit hd rfl)
      · cases heq
        rw [List.nil_append, hscanWhole]
        simp [bind, Except.bind, pure, Except.pure, hscanFraction _ hends, hscanExponent _ hrest]
  · rw [List.cons_append] at hscanWhole
    rw [List.singleton_append, scanNumber]
    simp [bind, Except.bind, pure, Except.pure, hscanWhole, hscanFraction _ hends,
      hscanExponent _ hrest]

/-- A number starts with a digit or a minus sign. -/
theorem IsNumber.eq_cons {cs : List Char} (h : IsNumber cs) :
    ∃ c more, cs = c :: more ∧ (c = '-' ∨ isDigit c = true) := by
  obtain ⟨sign, whole, fraction, exponent, hsign, hwhole, -, -, rfl⟩ := h
  obtain ⟨d, ds, rfl, hd⟩ := hwhole.eq_cons
  obtain rfl | rfl := hsign
  · exact ⟨d, _, rfl, .inr hd⟩
  · exact ⟨'-', _, rfl, .inl rfl⟩

/-- A digit or a minus sign starts a number. -/
theorem scanToken_of_scanNumber {c : Char} {more rest : List Char} {n : Number}
    (hc : c = '-' ∨ isDigit c = true) (h : scanNumber (c :: more) = .ok (n, rest)) :
    scanToken c more = (.number n, rest) := by
  obtain rfl | hdigit := hc
  · simp [scanToken, h]
  · rw [scanToken_of_isDigit _ hdigit, h]

theorem isSpace_of_isDigit {c : Char} (h : isDigit c = true) : isSpace c = false := by
  simp [isSpace, ne_of_isDigit h (d := ' ') rfl, ne_of_isDigit h (d := '\t') rfl,
    ne_of_isDigit h (d := '\n') rfl, ne_of_isDigit h (d := '\r') rfl]

/-- **A number of the grammar** is one token. -/
theorem tokens_of_isNumber {cs : List Char} (h : IsNumber cs) :
    ∃ n, ∀ rest, EndsNumber rest → tokens (cs ++ rest) = .number n :: tokens rest := by
  obtain ⟨n, hscan⟩ := scanNumber_of_isNumber h
  obtain ⟨c, more, rfl, hc⟩ := h.eq_cons
  have hspace : isSpace c = false := by
    obtain rfl | hdigit := hc
    · rfl
    · exact isSpace_of_isDigit hdigit
  exact ⟨n, fun rest hrest =>
    tokens_of_scanToken hspace (scanToken_of_scanNumber hc (hscan rest hrest))⟩

/-! ## the reading of a text -/

/-- The text is read as `v` at this level of nesting, and so it is with any text behind it
that no number goes on with. -/
structure Reads (level : Nat) (cs : List Char) (v : Reading) : Prop where
  tokens_append : ∀ rest, EndsNumber rest → tokens (cs ++ rest) = tokens cs ++ tokens rest
  starts : ∃ t ts, tokens cs = t :: ts ∧ t ≠ .endArray
  readValue : ∀ fuel rest, 2 * (tokens cs).length ≤ fuel →
    Json.readValue fuel level (tokens cs ++ rest) = (v, rest)

/-- What the text is read as. -/
def readingOf (level : Nat) (cs : List Char) : Reading :=
  (readValue (2 * (tokens cs).length) level (tokens cs)).1

/-- What characters are read as is unique. -/
theorem Reads.readingOf_eq {level : Nat} {cs : List Char} {v : Reading} (h : Reads level cs v) :
    readingOf level cs = v := by
  have hread := h.readValue _ [] (Nat.le_refl _)
  rw [List.append_nil] at hread
  rw [readingOf, hread]

/-- A scalar is a token of its own. -/
theorem reads_of_token {level : Nat} {cs : List Char} {t : Token} {v : Reading}
    (htokens : ∀ rest, EndsNumber rest → tokens (cs ++ rest) = t :: tokens rest)
    (ht : t ≠ .endArray)
    (hread : ∀ fuel rest, Json.readValue (fuel + 1) level (t :: rest) = (v, rest)) :
    Reads level cs v := by
  have hcs : tokens cs = [t] := by
    have h := htokens [] endsNumber_nil
    rwa [List.append_nil] at h
  refine ⟨fun rest hrest => ?_, ⟨t, [], hcs, ht⟩, fun fuel rest hfuel => ?_⟩
  · rw [htokens rest hrest, hcs, List.singleton_append]
  · rw [hcs, List.length_singleton] at hfuel
    obtain ⟨fuel, rfl⟩ := Nat.exists_eq_add_of_le' hfuel
    rw [hcs, List.singleton_append, hread]

/-- White space around a text changes nothing. -/
theorem Reads.padded {level : Nat} {p : Padded} {v : Reading} (h : Reads level p.inner v) :
    Reads level p.text v := by
  have htokens {rest : List Char} (hrest : EndsNumber rest) :
      tokens (p.text ++ rest) = tokens p.inner ++ tokens rest := by
    rw [Padded.text, List.append_assoc, List.append_assoc, tokens_spaces p.isSpaces_before,
      h.tokens_append _ (endsNumber_spaces p.isSpaces_after hrest),
      tokens_spaces p.isSpaces_after]
  have hcs : tokens p.text = tokens p.inner := by
    have hnil := htokens endsNumber_nil
    rwa [List.append_nil, show tokens [] = [] from rfl, List.append_nil] at hnil
  refine ⟨fun rest hrest => ?_, ?_, ?_⟩
  · rw [htokens hrest, hcs]
  · rw [hcs]
    exact h.starts
  · rw [hcs]
    exact h.readValue

/-! ### arrays -/

/-- Texts with commas between them have their tokens with commas between them. -/
theorem tokens_intercalate {α : Type} {text : α → List Char} {ts : α → List Token} {as : List α}
    (h : ∀ a ∈ as, ∀ rest, EndsNumber rest → tokens (text a ++ rest) = ts a ++ tokens rest)
    {rest : List Char} (hrest : EndsNumber rest) :
    tokens ([','].intercalate (as.map text) ++ rest) =
      [.comma].intercalate (as.map ts) ++ tokens rest := by
  induction as with
  | nil => rfl
  | cons a as ih =>
      rw [List.forall_mem_cons] at h
      cases as with
      | nil => simpa using h.1 rest hrest
      | cons b as =>
          have hmore := ih h.2
          simp only [List.map_cons] at hmore ⊢
          rw [List.intercalate_cons_cons, List.intercalate_cons_cons]
          simp only [List.append_assoc, List.cons_append, List.nil_append]
          rw [h.1 _ (endsNumber_comma _), tokens_comma, hmore]

/-- Items with commas between them are read one by one up to the end of the array. -/
theorem readItems_intercalate {level : Nat} {reading : Padded → Reading} {i : Padded}
    {items : List Padded} (h : ∀ j ∈ i :: items, Reads level j.text (reading j))
    (fuel : Nat) (rest : List Token)
    (hfuel : 2 * ([.comma].intercalate ((i :: items).map fun j => tokens j.text)).length + 1 ≤
      fuel) :
    readItems fuel level
        ([.comma].intercalate ((i :: items).map fun j => tokens j.text) ++ .endArray :: rest) =
      ((i :: items).map reading, .closed, rest) := by
  obtain ⟨fuel, rfl⟩ := Nat.exists_eq_add_of_le' (by omega : 1 ≤ fuel)
  induction items generalizing i fuel with
  | nil =>
      rw [List.forall_mem_singleton] at h
      simp only [List.map_cons, List.map_nil, List.intercalate_singleton] at hfuel ⊢
      rw [readItems, h.readValue fuel _ (by omega)]
      rfl
  | cons j items ih =>
      rw [List.forall_mem_cons] at h
      simp only [List.map_cons, List.intercalate_cons_cons, List.length_append,
        List.length_singleton] at hfuel ⊢
      obtain ⟨fuel, rfl⟩ := Nat.exists_eq_add_of_le' (by omega : 1 ≤ fuel)
      have hvalue := h.1.readValue (fuel + 1) (.comma :: ([.comma].intercalate
        (tokens j.text :: items.map fun j => tokens j.text) ++ .endArray :: rest)) (by omega)
      have hmore := ih h.2 fuel (by simp only [List.map_cons]; omega)
      simp only [List.map_cons] at hmore
      simp only [List.append_assoc, List.cons_append, List.nil_append]
      rw [readItems, hvalue]
      simp only [hmore]

/-- The text of an array has the tokens of its items, with commas between them. -/
theorem tokens_arrayText {space : List Char} {items : List Padded} (hspace : IsSpaces space)
    (h : ∀ i ∈ items, ∀ rest, EndsNumber rest →
      tokens (i.text ++ rest) = tokens i.text ++ tokens rest) (rest : List Char) :
    tokens (arrayText space items ++ rest) =
      .beginArray :: ([.comma].intercalate (items.map fun i => tokens i.text) ++
        .endArray :: tokens rest) := by
  simp only [arrayText, List.cons_append, List.append_assoc, List.nil_append]
  rw [tokens_beginArray, tokens_spaces hspace, tokens_intercalate h (endsNumber_endArray rest),
    tokens_endArray]

/-- **An array is read as its elements are**. -/
theorem reads_arrayText {level : Nat} {space : List Char} {items : List Padded}
    {reading : Padded → Reading} (hspace : IsSpaces space)
    (h : ∀ i ∈ items, Reads (level + 1) i.inner (reading i)) :
    Reads level (arrayText space items)
      (.array (decide (nestingLimit ≤ level)) (items.map reading) .closed) := by
  have htext : ∀ i ∈ items, Reads (level + 1) i.text (reading i) := fun i hi => (h i hi).padded
  have htokens := tokens_arrayText hspace fun i hi => (htext i hi).tokens_append
  have hcs := htokens []
  rw [List.append_nil, show tokens [] = [] from rfl] at hcs
  refine ⟨fun rest _ => ?_, ⟨_, _, hcs, nofun⟩, fun fuel rest hfuel => ?_⟩
  · rw [htokens, hcs]
    simp
  · rw [hcs] at hfuel ⊢
    simp only [List.length_cons, List.length_append, List.length_nil] at hfuel
    obtain ⟨fuel, rfl⟩ := Nat.exists_eq_add_of_le' (by omega : 1 ≤ fuel)
    simp only [List.cons_append, List.append_assoc, List.nil_append]
    cases items with
    | nil => rfl
    | cons i items =>
        obtain ⟨t, ts, hstart, ht⟩ := (htext i List.mem_cons_self).starts
        have hitems := readItems_intercalate htext fuel rest (by omega)
        have hfirst : ∃ ts', [.comma].intercalate ((i :: items).map fun j => tokens j.text) ++
            Token.endArray :: rest = t :: ts' := by
          cases items <;> simp [hstart]
        obtain ⟨ts', hts'⟩ := hfirst
        rw [hts'] at hitems ⊢
        rw [readValue_beginArray ts' ht, hitems]

/-! ### objects -/

/-- The tokens of a member of an object. -/
def Member.tokens (m : Member) : List Token :=
  .string (quotedOf m.key) :: .colon :: Json.tokens m.value.text

/-- A member is its key, a colon and the tokens of its value. -/
theorem Member.tokens_eq (m : Member) :
    m.tokens = .string (quotedOf m.key) :: .colon :: Json.tokens m.value.text := rfl

theorem Member.length_tokens (m : Member) :
    m.tokens.length = (Json.tokens m.value.text).length + 2 := rfl

/-- The text of a member has its tokens. -/
theorem Member.tokens_text {m : Member}
    (h : ∀ rest, EndsNumber rest →
      Json.tokens (m.value.text ++ rest) = Json.tokens m.value.text ++ Json.tokens rest)
    {rest : List Char} (hrest : EndsNumber rest) :
    Json.tokens (m.text ++ rest) = m.tokens ++ Json.tokens rest := by
  rw [text, List.append_assoc, tokens_spaces m.isSpaces_before, List.append_assoc,
    tokens_stringText m.isStringBody_key, List.append_assoc, tokens_spaces m.isSpaces_behindKey,
    List.cons_append, tokens_colon, h rest hrest]
  rfl

/-- Members with commas between them are read one by one up to the end of the object. -/
theorem readMembers_intercalate {level : Nat} {reading : Member → Reading} {m : Member}
    {members : List Member} (h : ∀ n ∈ m :: members, Reads level n.value.text (reading n))
    (fuel : Nat) (rest : List Token)
    (hfuel : 2 * ([.comma].intercalate ((m :: members).map Member.tokens)).length + 1 ≤ fuel) :
    readMembers fuel level
        ([.comma].intercalate ((m :: members).map Member.tokens) ++ .endObject :: rest) =
      ((m :: members).map fun n => (quotedOf n.key, reading n), .closed, rest) := by
  obtain ⟨fuel, rfl⟩ := Nat.exists_eq_add_of_le' (by omega : 1 ≤ fuel)
  induction members generalizing m fuel with
  | nil =>
      rw [List.forall_mem_singleton] at h
      simp only [List.map_cons, List.map_nil, List.intercalate_singleton,
        m.length_tokens] at hfuel ⊢
      rw [m.tokens_eq, List.cons_append, List.cons_append, readMembers,
        h.readValue fuel _ (by omega)]
      rfl
  | cons n members ih =>
      rw [List.forall_mem_cons] at h
      simp only [List.map_cons, List.intercalate_cons_cons, List.length_append,
        List.length_singleton, m.length_tokens] at hfuel ⊢
      obtain ⟨fuel, rfl⟩ := Nat.exists_eq_add_of_le' (by omega : 1 ≤ fuel)
      have hvalue := h.1.readValue (fuel + 1) (.comma :: ([.comma].intercalate
        (n.tokens :: members.map Member.tokens) ++ .endObject :: rest)) (by omega)
      have hmore := ih h.2 fuel (by simp only [List.map_cons]; omega)
      simp only [List.map_cons] at hmore
      simp only [List.append_assoc, List.cons_append, List.nil_append, m.tokens_eq]
      rw [readMembers, hvalue]
      simp only [hmore]

/-- The text of an object has the tokens of its members, with commas between them. -/
theorem tokens_objectText {space : List Char} {members : List Member} (hspace : IsSpaces space)
    (h : ∀ m ∈ members, ∀ rest, EndsNumber rest →
      tokens (m.value.text ++ rest) = tokens m.value.text ++ tokens rest) (rest : List Char) :
    tokens (objectText space members ++ rest) =
      .beginObject :: ([.comma].intercalate (members.map Member.tokens) ++
        .endObject :: tokens rest) := by
  have hmembers : ∀ m ∈ members, ∀ rest, EndsNumber rest →
      tokens (m.text ++ rest) = m.tokens ++ tokens rest :=
    fun m hm _ hrest => Member.tokens_text (h m hm) hrest
  simp only [objectText, List.cons_append, List.append_assoc, List.nil_append]
  rw [tokens_beginObject, tokens_spaces hspace,
    tokens_intercalate hmembers (endsNumber_endObject rest), tokens_endObject]

/-- **An object is read as its members are**. -/
theorem reads_objectText {level : Nat} {space : List Char} {members : List Member}
    {reading : Member → Reading} (hspace : IsSpaces space)
    (h : ∀ m ∈ members, Reads (level + 1) m.value.inner (reading m)) :
    Reads level (objectText space members)
      (.object (decide (nestingLimit ≤ level))
        (members.map fun m => (quotedOf m.key, reading m)) .closed) := by
  have htext : ∀ m ∈ members, Reads (level + 1) m.value.text (reading m) :=
    fun m hm => (h m hm).padded
  have htokens := tokens_objectText hspace fun m hm => (htext m hm).tokens_append
  have hcs := htokens []
  rw [List.append_nil, show tokens [] = [] from rfl] at hcs
  refine ⟨fun rest _ => ?_, ⟨_, _, hcs, nofun⟩, fun fuel rest hfuel => ?_⟩
  · rw [htokens, hcs]
    simp
  · rw [hcs] at hfuel ⊢
    simp only [List.length_cons, List.length_append, List.length_nil] at hfuel
    obtain ⟨fuel, rfl⟩ := Nat.exists_eq_add_of_le' (by omega : 1 ≤ fuel)
    simp only [List.cons_append, List.append_assoc, List.nil_append]
    cases members with
    | nil => rfl
    | cons m members =>
        have hmembers := readMembers_intercalate htext fuel rest (by omega)
        have hfirst : ∃ ts', [.comma].intercalate ((m :: members).map Member.tokens) ++
            Token.endObject :: rest = .string (quotedOf m.key) :: ts' := by
          cases members <;> simp [m.tokens_eq]
        obtain ⟨ts', hts'⟩ := hfirst
        rw [hts'] at hmembers ⊢
        rw [readValue_beginObject, hmembers]

/-! ## derived texts -/

theorem passing_eq_ok {fault? : Option Fault} : passing fault? = .ok () ↔ fault? = none := by
  cases fault? <;> simp [passing]

theorem seq_eq_ok {x y : Except Fault Unit} :
    (do x; y) = .ok () ↔ x = .ok () ∧ y = .ok () := by
  cases x <;> simp [bind, Except.bind]

namespace Reading

/-- Items are skipped if each of them is. -/
theorem skipItems_eq_ok {items : List Reading} :
    skipItems items = .ok () ↔ ∀ v ∈ items, v.skip = .ok () := by
  induction items with
  | nil => simp [skipItems]
  | cons v items ih => rw [skipItems, seq_eq_ok, ih, List.forall_mem_cons]

/-- Members are skipped if the value of each of them is. -/
theorem skipMembers_eq_ok {members : List (Quoted × Reading)} :
    skipMembers members = .ok () ↔ ∀ m ∈ members, m.2.skip = .ok () := by
  induction members with
  | nil => simp [skipMembers]
  | cons m members ih => rw [skipMembers, seq_eq_ok, ih, List.forall_mem_cons, skipMember]

/-- An array is skipped if its items are and it is closed. -/
theorem skip_array {deep : Bool} {items : List Reading} {closing : Closing} :
    (array deep items closing).skip = .ok () ↔
      (∀ v ∈ items, v.skip = .ok ()) ∧ closing.skipped? = none := by
  rw [skip, seq_eq_ok, passing_eq_ok, skipItems_eq_ok]

/-- An object is skipped if its members are and it is closed. -/
theorem skip_object {deep : Bool} {members : List (Quoted × Reading)} {closing : Closing} :
    (object deep members closing).skip = .ok () ↔
      (∀ m ∈ members, m.2.skip = .ok ()) ∧ closing.skipped? = none := by
  rw [skip, seq_eq_ok, passing_eq_ok, skipMembers_eq_ok]

end Reading

/-- **A value of the grammar** is read as something that is skipped, at every depth. -/
theorem IsValue.exists_reads {cs : List Char} (h : IsValue cs) (level : Nat) :
    ∃ v, Reads level cs v ∧ v.skip = .ok () := by
  induction h generalizing level with
  | null => exact ⟨_, reads_of_token (fun rest _ => tokens_null rest) nofun fun _ _ => rfl, rfl⟩
  | word b => exact ⟨_, reads_of_token (fun rest _ => tokens_word b rest) nofun fun _ _ => rfl, rfl⟩
  | number h =>
      obtain ⟨n, hn⟩ := tokens_of_isNumber h
      exact ⟨_, reads_of_token hn nofun fun _ _ => rfl, rfl⟩
  | string h =>
      exact ⟨_, reads_of_token (fun rest _ => tokens_stringText h rest) nofun fun _ _ => rfl, rfl⟩
  | @array space items hspace _ ih =>
      have hitems : ∀ i ∈ items, Reads (level + 1) i.inner (readingOf (level + 1) i.inner) ∧
          (readingOf (level + 1) i.inner).skip = .ok () := by
        intro i hi
        obtain ⟨v, hv, hskip⟩ := ih i hi (level + 1)
        rw [hv.readingOf_eq]
        exact ⟨hv, hskip⟩
      refine ⟨_, reads_arrayText hspace fun i hi => (hitems i hi).1, ?_⟩
      exact Reading.skip_array.mpr ⟨List.forall_mem_map.mpr fun i hi => (hitems i hi).2, rfl⟩
  | @object space members hspace _ ih =>
      have hmembers : ∀ m ∈ members,
          Reads (level + 1) m.value.inner (readingOf (level + 1) m.value.inner) ∧
          (readingOf (level + 1) m.value.inner).skip = .ok () := by
        intro m hm
        obtain ⟨v, hv, hskip⟩ := ih m hm (level + 1)
        rw [hv.readingOf_eq]
        exact ⟨hv, hskip⟩
      refine ⟨_, reads_objectText hspace fun m hm => (hmembers m hm).1, ?_⟩
      exact Reading.skip_object.mpr ⟨List.forall_mem_map.mpr fun m hm => (hmembers m hm).2, rfl⟩

/-- **A derived text is one value**, whatever its level. -/
theorem IsValue.reads {cs : List Char} (h : IsValue cs) (level : Nat) :
    Reads level cs (readingOf level cs) := by
  obtain ⟨v, hv, -⟩ := h.exists_reads level
  rwa [hv.readingOf_eq]

/-- **A reader that skips a derived text reaches its end**. -/
theorem IsValue.skip_readingOf {cs : List Char} (h : IsValue cs) (level : Nat) :
    (readingOf level cs).skip = .ok () := by
  obtain ⟨v, hv, hskip⟩ := h.exists_reads level
  rwa [hv.readingOf_eq]

/-- The elements of a derived array are read each on its own. -/
theorem readingOf_arrayText {space : List Char} {items : List Padded} (hspace : IsSpaces space)
    (h : ∀ i ∈ items, IsValue i.inner) (level : Nat) :
    readingOf level (arrayText space items) =
      .array (decide (nestingLimit ≤ level))
        (items.map fun i => readingOf (level + 1) i.inner) .closed :=
  (reads_arrayText hspace fun i hi => (h i hi).reads (level + 1)).readingOf_eq

/-- The member as it is read at a level of nesting. -/
def Member.reading (level : Nat) (m : Member) : Quoted × Reading :=
  (quotedOf m.key, readingOf level m.value.inner)

/-- The members of a derived object are read each on its own. -/
theorem readingOf_objectText {space : List Char} {members : List Member}
    (hspace : IsSpaces space) (h : ∀ m ∈ members, IsValue m.value.inner) (level : Nat) :
    readingOf level (objectText space members) =
      .object (decide (nestingLimit ≤ level)) (members.map (Member.reading (level + 1)))
        .closed :=
  (reads_objectText hspace fun m hm => (h m hm).reads (level + 1)).readingOf_eq

/-- A JSON text: a value, with white space around it. -/
def IsText (cs : List Char) : Prop := ∃ p : Padded, IsValue p.inner ∧ cs = p.text

/-- **A derived text is read as its value**, with nothing behind it. -/
theorem read_of_isValue {text : String} {p : Padded} (h : IsValue p.inner)
    (htext : text.toList = p.text) : read text = (readingOf 0 p.inner, false) := by
  have hvalue := (h.reads 0).padded.readValue (2 * (tokens p.text).length + 1) [] (Nat.le_succ _)
  rw [List.append_nil] at hvalue
  rw [read, htext]
  simp only [hvalue, List.isEmpty_nil, Bool.not_true]

/-- A text of the grammar is decoded by what its value is read as. -/
theorem decode_of_isValue {α : Type} (d : Decoder α) {text : String} {p : Padded}
    (h : IsValue p.inner) (htext : text.toList = p.text) :
    decode d text = d (readingOf 0 p.inner) := by
  rw [decode, read_of_isValue h htext]
  dsimp only
  cases d (readingOf 0 p.inner) <;> rfl

end BindingSynthesis.Json
