import BindingSynthesis.Proofs.JsonGrammar
import BindingSynthesis.Proofs.MemberOrder

/-!
# BindingSynthesis.Proofs.AcceptedTexts

What is read without a fault is a JSON text.

```
text  ──tokens──▶  tokens, each spelled in its place  ──readValue──▶  reading without a break
```

1. A token that does not break off stands for its spelling at the front of the text, and
   the tokens behind it are those of the rest (`tokens_eq_cons`).
2. A value that can be skipped was read from a derived text (`derivesValues`), so the
   texts that can be skipped to their end are the derived ones (`isText_iff_skip`).
3. A decoder that reads a value to its end can only read what can be skipped, so it
   accepts derived texts only (`Decoder.Finishes.isText`).
-/

namespace BindingSynthesis.Json

open Text

/-! ## numbers and strings -/

/-- What a scan for digits takes is a run of digits as soon as it takes anything. -/
theorem isDigits_takeWhile {cs : List Char} (h : cs.takeWhile isDigit ≠ []) :
    IsDigits (cs.takeWhile isDigit) := ⟨h, List.all_eq_true.mp List.all_takeWhile⟩

/-- The scanner stops after a whole part of the grammar; the rest of the text is
untouched. -/
theorem isWhole_of_scanWhole {cs whole rest : List Char} (h : scanWhole cs = .ok (whole, rest)) :
    IsWhole whole ∧ cs = whole ++ rest := by
  rw [scanWhole.eq_def] at h
  split at h
  · split at h
    · cases h
      exact ⟨.inl rfl, rfl⟩
    · split at h <;> cases h
      exact ⟨.inl rfl, rfl⟩
  · next hzero =>
      dsimp only at h
      split at h
      · cases h
      · next hdigits =>
          cases h
          refine ⟨.inr ⟨isDigits_takeWhile hdigits, fun hhead => ?_⟩,
            List.takeWhile_append_dropWhile.symm⟩
          cases cs with
          | nil => cases hhead
          | cons c more =>
              rw [List.takeWhile_cons] at hhead
              split at hhead
              · cases hhead
                exact hzero more rfl
              · cases hhead

/-- A fraction is optional: the scanner has taken one, or nothing at all. -/
theorem isFraction_of_scanFraction {cs rest : List Char} {fraction? : Option (List Char)}
    (h : scanFraction cs = .ok (fraction?, rest)) :
    ∃ fraction, IsFraction fraction ∧ cs = fraction ++ rest := by
  rw [scanFraction.eq_def] at h
  split at h
  · next more =>
      dsimp only at h
      split at h
      · cases h
      · next hdigits =>
          cases h
          refine ⟨_, .inr ⟨_, isDigits_takeWhile hdigits, rfl⟩, ?_⟩
          rw [List.cons_append, List.takeWhile_append_dropWhile]
  · cases h
    exact ⟨[], .inl rfl, rfl⟩

/-- As for the fraction, with either letter and either sign in front of the digits. -/
theorem isExponent_of_scanExponent {cs rest : List Char} {exponent? : Option Int}
    (h : scanExponent cs = .ok (exponent?, rest)) :
    ∃ exponent, IsExponent exponent ∧ cs = exponent ++ rest := by
  rw [scanExponent.eq_def] at h
  split at h
  · next e more =>
      split at h
      · next he =>
          split at h
          next negative unsigned hsigned =>
            have hsign : ∃ sign : List Char, (sign = [] ∨ sign = ['-'] ∨ sign = ['+']) ∧
                more = sign ++ unsigned := by
              split at hsigned <;> cases hsigned
              · exact ⟨['-'], .inr (.inl rfl), rfl⟩
              · exact ⟨['+'], .inr (.inr rfl), rfl⟩
              · exact ⟨[], .inl rfl, rfl⟩
            obtain ⟨sign, hsign, rfl⟩ := hsign
            dsimp only at h
            split at h
            · cases h
            · next hdigits =>
                cases h
                refine ⟨_, .inr ⟨e, sign, _, he, hsign, isDigits_takeWhile hdigits, rfl⟩, ?_⟩
                rw [List.cons_append, List.append_assoc, List.takeWhile_append_dropWhile]
      · cases h
        exact ⟨[], .inl rfl, rfl⟩
  · cases h
    exact ⟨[], .inl rfl, rfl⟩

/-- The three parts together: a number that the scanner accepts is a number of the
grammar. -/
theorem isNumber_of_scanNumber {cs rest : List Char} {n : Number}
    (h : scanNumber cs = .ok (n, rest)) : ∃ number, IsNumber number ∧ cs = number ++ rest := by
  unfold scanNumber at h
  split at h
  next negative unsigned hsigned =>
    have hsign : ∃ sign : List Char, (sign = [] ∨ sign = ['-']) ∧ cs = sign ++ unsigned := by
      split at hsigned <;> cases hsigned
      · exact ⟨['-'], .inr rfl, rfl⟩
      · exact ⟨[], .inl rfl, rfl⟩
    obtain ⟨sign, hsign, rfl⟩ := hsign
    obtain ⟨⟨whole, afterWhole⟩, hwhole, h⟩ := bind_eq_ok.mp h
    obtain ⟨⟨fraction?, afterFraction⟩, hfraction, h⟩ := bind_eq_ok.mp h
    obtain ⟨⟨exponent?, rest'⟩, hexponent, h⟩ := bind_eq_ok.mp h
    cases h
    obtain ⟨hisWhole, rfl⟩ := isWhole_of_scanWhole hwhole
    obtain ⟨fraction, hisFraction, rfl⟩ := isFraction_of_scanFraction hfraction
    obtain ⟨exponent, hisExponent, rfl⟩ := isExponent_of_scanExponent hexponent
    exact ⟨_, ⟨sign, whole, fraction, exponent, hsign, hisWhole, hisFraction, hisExponent, rfl⟩,
      by simp only [List.append_assoc]⟩

/-- A string without a fault ends at a quote, and its body before that quote has only
plain characters and whole escapes. -/
theorem isStringBody_of_scanString {cs : List Char} (h : (scanString cs).fault? = none) :
    ∃ raw, IsStringBody raw ∧ cs = raw ++ '"' :: (scanString cs).rest := by
  fun_induction scanString cs with
  | case1 | case4 | case5 | case6 | case8 | case9 => cases h
  | case2 rest => exact ⟨[], .nil, rfl⟩
  | case3 a b c d rest n hn ih =>
      obtain ⟨raw, hraw, heq⟩ := ih h
      exact ⟨_, .unit hn hraw,
        congrArg (fun cs => '\\' :: 'u' :: a :: b :: c :: d :: cs) heq⟩
  | case7 c rest _ _ e he ih =>
      obtain ⟨raw, hraw, heq⟩ := ih h
      exact ⟨_, .letter he hraw, congrArg (fun cs => '\\' :: c :: cs) heq⟩
  | case10 c rest hquote _ _ hnil hcons hcontrol ih =>
      obtain ⟨raw, hraw, heq⟩ := ih h
      have hbackslash : c ≠ '\\' := by
        intro hc
        cases rest with
        | nil => exact hnil hc rfl
        | cons d more => exact hcons d more hc rfl
      have hplain := isPlain_iff.mpr ⟨hquote, hbackslash, Nat.not_lt.mp hcontrol⟩
      exact ⟨_, .plain hplain hraw, congrArg (c :: ·) heq⟩

/-- A literal word has been read only when every one of its letters stood there. -/
theorem scanLetters_eq_ok {letters cs rest : List Char} (h : scanLetters letters cs = .ok rest) :
    cs = letters ++ rest := by
  induction letters generalizing cs with
  | nil =>
      cases h
      rfl
  | cons c letters ih =>
      cases cs with
      | nil => cases h
      | cons d cs =>
          rw [scanLetters] at h
          split at h
          · next heq => rw [heq, ih h, List.cons_append]
          · cases h

/-! ## tokens -/

/-- The token breaks off. -/
def Token.IsBroken : Token → Prop
  | .brokenString _ | .broken _ => True
  | _ => False

/-- The token is spelled so. -/
inductive Token.Spelled : Token → List Char → Prop
  | beginArray : Spelled .beginArray ['[']
  | endArray : Spelled .endArray [']']
  | beginObject : Spelled .beginObject ['{']
  | endObject : Spelled .endObject ['}']
  | colon : Spelled .colon [':']
  | comma : Spelled .comma [',']
  | null : Spelled (.word .null) ['n', 'u', 'l', 'l']
  | bool (b : Bool) : Spelled (.word (.bool b)) (Json.word b)
  | number {n : Number} {cs : List Char} (h : IsNumber cs) : Spelled (.number n) cs
  | string {s : Quoted} {raw : List Char} (h : IsStringBody raw) :
    Spelled (.string s) (stringText raw)

/-- What was scanned from the text is broken, or spelled at its front. -/
def IsScanned (cs : List Char) (scanned : Token × List Char) : Prop :=
  scanned.1.IsBroken ∨ ∃ lexeme, scanned.1.Spelled lexeme ∧ cs = lexeme ++ scanned.2

/-- The three literal words differ in their letters only, so one lemma serves them. -/
theorem isScanned_word {c : Char} {letters rest : List Char} {v : Reading}
    (h : (Token.word v).Spelled (c :: letters)) :
    IsScanned (c :: rest) (match scanLetters letters rest with
      | .ok rest' => (.word v, rest')
      | .error f => (.broken (.always f), [])) := by
  split
  · next hletters => exact .inr ⟨_, h, congrArg (c :: ·) (scanLetters_eq_ok hletters)⟩
  · exact .inl trivial

/-- Whatever character a token starts with, the token and the text that spells it belong
together. -/
theorem isScanned_scanToken (c : Char) (rest : List Char) :
    IsScanned (c :: rest) (scanToken c rest) := by
  have hcase {p : Prop} [Decidable p] {x y : Token × List Char}
      (hx : p → IsScanned (c :: rest) x) (hy : IsScanned (c :: rest) y) :
      IsScanned (c :: rest) (if p then x else y) := by
    split
    · exact hx ‹p›
    · exact hy
  have hmark {d : Char} {t : Token} (ht : t.Spelled [d]) (hc : c = d) :
      IsScanned (c :: rest) (t, rest) := .inr ⟨[d], ht, by rw [hc]; rfl⟩
  refine hcase (hmark .beginArray) <| hcase (hmark .endArray) <| hcase (hmark .beginObject) <|
    hcase (hmark .endObject) <| hcase (hmark .colon) <| hcase (hmark .comma) <|
    hcase ?string <| hcase ?null <| hcase ?true <| hcase ?false <| hcase ?number <|
    .inl trivial
  case string =>
    rintro rfl
    dsimp only
    rw [StringScan.token]
    split
    · next hfault =>
        obtain ⟨raw, hraw, heq⟩ := isStringBody_of_scanString hfault
        refine .inr ⟨_, .string hraw, ?_⟩
        rw [stringText, List.cons_append, List.append_assoc]
        exact congrArg ('"' :: ·) heq
    · exact .inl trivial
  case null =>
    rintro rfl
    exact isScanned_word .null
  case true =>
    rintro rfl
    exact isScanned_word (.bool true)
  case false =>
    rintro rfl
    exact isScanned_word (.bool false)
  case number =>
    intro _
    split
    · next hnumber =>
        obtain ⟨number, hnumber, heq⟩ := isNumber_of_scanNumber hnumber
        exact .inr ⟨_, .number hnumber, heq⟩
    · exact .inl trivial

/-- Only blank text has no tokens. -/
theorem isSpaces_of_tokens {cs : List Char} (h : tokens cs = []) : IsSpaces cs := by
  induction cs with
  | nil => exact isSpaces_nil
  | cons c rest ih =>
      by_cases hspace : isSpace c = true
      · rw [tokens_of_isSpace rest hspace] at h
        exact List.forall_mem_cons.mpr ⟨hspace, ih h⟩
      · rw [tokens_of_scanToken (Bool.eq_false_iff.mpr hspace) rfl] at h
        cases h

/-- **The first token of a text is spelled behind some white space**, and those behind it
are the tokens of the rest. -/
theorem tokens_eq_cons {cs : List Char} {t : Token} {ts : List Token} (h : tokens cs = t :: ts)
    (ht : ¬t.IsBroken) :
    ∃ space lexeme rest, IsSpaces space ∧ t.Spelled lexeme ∧ cs = space ++ (lexeme ++ rest) ∧
      tokens rest = ts := by
  induction cs with
  | nil => cases h
  | cons c rest ih =>
      by_cases hspace : isSpace c = true
      · rw [tokens_of_isSpace rest hspace] at h
        obtain ⟨space, lexeme, rest', hspaces, hlexeme, rfl, hrest⟩ := ih h
        exact ⟨c :: space, lexeme, rest', List.forall_mem_cons.mpr ⟨hspace, hspaces⟩, hlexeme, rfl,
          hrest⟩
      · rw [tokens_of_scanToken (Bool.eq_false_iff.mpr hspace) rfl] at h
        cases h
        obtain hbroken | ⟨lexeme, hlexeme, heq⟩ := isScanned_scanToken c rest
        · exact absurd hbroken ht
        · exact ⟨[], lexeme, _, isSpaces_nil, hlexeme, heq, rfl⟩

/-- The token is a mark: it is spelled as this character, and does not break off. -/
def Token.IsMark (t : Token) (mark : Char) : Prop :=
  ¬t.IsBroken ∧ ∀ lexeme, t.Spelled lexeme → lexeme = [mark]

theorem isMark_beginArray : Token.beginArray.IsMark '[' := ⟨id, fun _ h => by cases h; rfl⟩

theorem isMark_endArray : Token.endArray.IsMark ']' := ⟨id, fun _ h => by cases h; rfl⟩

theorem isMark_beginObject : Token.beginObject.IsMark '{' := ⟨id, fun _ h => by cases h; rfl⟩

theorem isMark_endObject : Token.endObject.IsMark '}' := ⟨id, fun _ h => by cases h; rfl⟩

theorem isMark_colon : Token.colon.IsMark ':' := ⟨id, fun _ h => by cases h; rfl⟩

theorem isMark_comma : Token.comma.IsMark ',' := ⟨id, fun _ h => by cases h; rfl⟩

/-- A leading punctuation mark of the token list comes from that mark in the text, behind
blanks. -/
theorem tokens_eq_mark {cs : List Char} {t : Token} {mark : Char} {ts : List Token}
    (h : tokens cs = t :: ts) (ht : t.IsMark mark) :
    ∃ space rest, IsSpaces space ∧ cs = space ++ mark :: rest ∧ tokens rest = ts := by
  obtain ⟨space, lexeme, rest, hspace, hlexeme, rfl, hrest⟩ := tokens_eq_cons h ht.1
  exact ⟨space, rest, hspace, by rw [ht.2 lexeme hlexeme]; rfl, hrest⟩

/-! ## values -/

/-- A bracket that was skipped without a fault is there, as the first of the tokens. -/
theorem closeWith_of_skipped {isEnd : Token → Bool} {ts rest : List Token} {closing : Closing}
    (h : closeWith isEnd ts = (closing, rest)) (hskip : closing.skipped? = none) :
    ∃ t, ts = t :: rest ∧ isEnd t = true := by
  cases ts with
  | nil =>
      cases h
      cases hskip
  | cons t ts =>
      rw [closeWith] at h
      split at h <;> cases h
      · exact ⟨t, rfl, ‹_›⟩
      · cases hskip

/-- With this much fuel, a value that can be skipped is derived: it stands behind some white
space, and in front of what is left. -/
def DerivesValues (fuel : Nat) : Prop :=
  ∀ {level : Nat} {cs : List Char} {v : Reading} {ts : List Token},
    readValue fuel level (tokens cs) = (v, ts) → v.skip = .ok () →
    ∃ before value rest, IsSpaces before ∧ IsValue value ∧ cs = before ++ (value ++ rest) ∧
      tokens rest = ts

/-- A token whose spellings are values is the value in its place. -/
theorem derived_of_lexeme {cs : List Char} {t : Token} {ts : List Token}
    (h : tokens cs = t :: ts) (ht : ¬t.IsBroken)
    (hvalue : ∀ lexeme, t.Spelled lexeme → IsValue lexeme) :
    ∃ before value rest, IsSpaces before ∧ IsValue value ∧ cs = before ++ (value ++ rest) ∧
      tokens rest = ts := by
  obtain ⟨space, lexeme, rest, hspace, hlexeme, rfl, hrest⟩ := tokens_eq_cons h ht
  exact ⟨space, lexeme, rest, hspace, hvalue lexeme hlexeme, rfl, hrest⟩

/-- A value in front of a mark, with the white space around it. -/
theorem DerivesValues.padded {fuel : Nat} (hfuel : DerivesValues fuel) {level : Nat}
    {cs : List Char} {v : Reading} {t : Token} {mark : Char} {ts : List Token}
    (h : readValue fuel level (tokens cs) = (v, t :: ts)) (hskip : v.skip = .ok ())
    (ht : t.IsMark mark) :
    ∃ p : Padded, IsValue p.inner ∧ ∃ rest, cs = p.text ++ mark :: rest ∧ tokens rest = ts := by
  obtain ⟨before, value, cs', hbefore, hvalue, rfl, hbehind⟩ := hfuel h hskip
  obtain ⟨after, rest, hafter, rfl, hrest⟩ := tokens_eq_mark hbehind ht
  exact ⟨⟨before, value, after, hbefore, hafter⟩, hvalue, rest, by simp [Padded.text], hrest⟩

/-- The items of an array are values of the grammar with commas between them, up to the
bracket. -/
theorem items_of_readItems {fuel : Nat} (hfuel : ∀ n < fuel, DerivesValues n) {level : Nat}
    {cs : List Char} {vs : List Reading} {closing : Closing} {ts : List Token}
    (h : readItems fuel level (tokens cs) = (vs, closing, ts))
    (hskip : ∀ v ∈ vs, v.skip = .ok ()) (hclosing : closing.skipped? = none) :
    ∃ (i : Padded) (items : List Padded) (rest : List Char), (∀ j ∈ i :: items, IsValue j.inner) ∧
      cs = [','].intercalate ((i :: items).map Padded.text) ++ ']' :: rest ∧ tokens rest = ts := by
  -- each further element takes one unit of fuel, and the last one is in front of the bracket
  induction fuel generalizing cs vs closing ts with
  | zero =>
      cases h
      cases hclosing
  | succ fuel ih =>
      have hvalues : DerivesValues fuel := hfuel fuel fuel.lt_succ_self
      rw [readItems] at h
      obtain ⟨⟨v, behind⟩, hread⟩ : ∃ r, readValue fuel level (tokens cs) = r := ⟨_, rfl⟩
      rw [hread] at h
      dsimp only at h
      split at h
      · cases h
        obtain ⟨hskipFirst, hskipMore⟩ := List.forall_mem_cons.mp hskip
        obtain ⟨p, hp, body, rfl, rfl⟩ := hvalues.padded hread hskipFirst isMark_comma
        obtain ⟨i, items, rest, hitems, rfl, hrest⟩ :=
          ih (fun n hn => hfuel n (Nat.lt_succ_of_lt hn)) rfl hskipMore hclosing
        refine ⟨p, i :: items, rest, List.forall_mem_cons.mpr ⟨hp, hitems⟩, ?_, hrest⟩
        simp [List.intercalate_cons_cons]
      · obtain ⟨rfl, hclose⟩ := Prod.mk.inj h
        obtain ⟨t, rfl, ht⟩ := closeWith_of_skipped hclose hclosing
        cases t <;> cases ht
        obtain ⟨p, hp, rest, rfl, hrest⟩ :=
          hvalues.padded hread (List.forall_mem_cons.mp hskip).1 isMark_endArray
        exact ⟨p, [], rest, List.forall_mem_singleton.mpr hp, by simp, hrest⟩

/-- As for the items, with a quoted name and a colon before each value. -/
theorem members_of_readMembers {fuel : Nat} (hfuel : ∀ n < fuel, DerivesValues n) {level : Nat}
    {cs : List Char} {vs : List (Quoted × Reading)} {closing : Closing} {ts : List Token}
    (h : readMembers fuel level (tokens cs) = (vs, closing, ts))
    (hskip : ∀ m ∈ vs, m.2.skip = .ok ()) (hclosing : closing.skipped? = none) :
    ∃ (m : Member) (members : List Member) (rest : List Char),
      (∀ n ∈ m :: members, IsValue n.value.inner) ∧
      cs = [','].intercalate ((m :: members).map Member.text) ++ '}' :: rest ∧
      tokens rest = ts := by
  induction fuel generalizing cs vs closing ts with
  | zero =>
      cases h
      cases hclosing
  | succ fuel ih =>
      rw [readMembers.eq_def] at h
      split at h
      · next level _ _ _ fuel key more hfuel' htokens =>
          cases hfuel'
          have hvalues : DerivesValues fuel := hfuel fuel fuel.lt_succ_self
          obtain ⟨⟨v, behind⟩, hread⟩ : ∃ r, readValue fuel level more = r := ⟨_, rfl⟩
          rw [hread] at h
          dsimp only at h
          obtain ⟨first, lexeme, cs', hfirst, hlexeme, rfl, hcs'⟩ := tokens_eq_cons htokens id
          obtain ⟨behindKey, body, hbehindKey, rfl, rfl⟩ := tokens_eq_mark hcs' isMark_colon
          obtain ⟨raw, hraw, rfl⟩ : ∃ raw, IsStringBody raw ∧ lexeme = stringText raw := by
            cases hlexeme with
            | string hraw => exact ⟨_, hraw, rfl⟩
          split at h
          · cases h
            obtain ⟨hskipFirst, hskipMore⟩ := List.forall_mem_cons.mp hskip
            obtain ⟨p, hp, body, rfl, rfl⟩ := hvalues.padded hread hskipFirst isMark_comma
            obtain ⟨m, members, rest, hmembers, rfl, hrest⟩ :=
              ih (fun n hn => hfuel n (Nat.lt_succ_of_lt hn)) rfl hskipMore hclosing
            refine ⟨⟨first, raw, behindKey, p, hfirst, hraw, hbehindKey⟩, m :: members, rest,
              List.forall_mem_cons.mpr ⟨hp, hmembers⟩, ?_, hrest⟩
            simp [List.intercalate_cons_cons, Member.text]
          · obtain ⟨rfl, hclose⟩ := Prod.mk.inj h
            obtain ⟨t, rfl, ht⟩ := closeWith_of_skipped hclose hclosing
            cases t <;> cases ht
            obtain ⟨p, hp, rest, rfl, hrest⟩ :=
              hvalues.padded hread (List.forall_mem_cons.mp hskip).1 isMark_endObject
            refine ⟨⟨first, raw, behindKey, p, hfirst, hraw, hbehindKey⟩, [], rest,
              List.forall_mem_singleton.mpr hp, ?_, hrest⟩
            simp [Member.text]
      · cases h
        cases (List.forall_mem_cons.mp hskip).1
      · cases h
        cases hclosing

/-- The reader takes a bracket and the items behind it for the text of one array. -/
theorem array_of_readValue {fuel : Nat} (hfuel : ∀ n < fuel, DerivesValues n) {level : Nat}
    {body : List Char} {v : Reading} {ts : List Token}
    (h : readValue (fuel + 1) level (.beginArray :: tokens body) = (v, ts))
    (hskip : v.skip = .ok ()) :
    ∃ space items rest, IsSpaces space ∧ (∀ i ∈ items, IsValue i.inner) ∧
      '[' :: body = arrayText space items ++ rest ∧ tokens rest = ts := by
  simp only [readValue] at h
  split at h
  · cases h
    cases (Reading.skip_array.mp hskip).2
  · next heq =>
      cases h
      obtain ⟨space, rest, hspace, rfl, hrest⟩ := tokens_eq_mark heq isMark_endArray
      exact ⟨space, [], rest, hspace, List.forall_mem_nil _, by simp [arrayText], hrest⟩
  · cases h
    obtain ⟨hitems, hclosing⟩ := Reading.skip_array.mp hskip
    obtain ⟨i, items, rest, hvalues, rfl, hrest⟩ := items_of_readItems hfuel rfl hitems hclosing
    exact ⟨[], i :: items, rest, isSpaces_nil, hvalues, by simp [arrayText], hrest⟩

/-- The reader takes a brace and the members behind it for the text of one object. -/
theorem object_of_readValue {fuel : Nat} (hfuel : ∀ n < fuel, DerivesValues n) {level : Nat}
    {body : List Char} {v : Reading} {ts : List Token}
    (h : readValue (fuel + 1) level (.beginObject :: tokens body) = (v, ts))
    (hskip : v.skip = .ok ()) :
    ∃ space members rest, IsSpaces space ∧ (∀ m ∈ members, IsValue m.value.inner) ∧
      '{' :: body = objectText space members ++ rest ∧ tokens rest = ts := by
  simp only [readValue] at h
  split at h
  · cases h
    cases (Reading.skip_object.mp hskip).2
  · next heq =>
      cases h
      obtain ⟨space, rest, hspace, rfl, hrest⟩ := tokens_eq_mark heq isMark_endObject
      exact ⟨space, [], rest, hspace, List.forall_mem_nil _, by simp [objectText], hrest⟩
  · cases h
    obtain ⟨hmembers, hclosing⟩ := Reading.skip_object.mp hskip
    obtain ⟨m, members, rest, hvalues, rfl, hrest⟩ :=
      members_of_readMembers hfuel rfl hmembers hclosing
    exact ⟨[], m :: members, rest, isSpaces_nil, hvalues, by simp [objectText], hrest⟩
  -- an object that breaks off in front of its first key cannot be skipped
  · cases h
    cases (Reading.skip_object.mp hskip).2
  · cases h
    cases (Reading.skip_object.mp hskip).2

/-- **A value that can be skipped is derived**. -/
theorem derivesValues (fuel : Nat) : DerivesValues fuel := by
  induction fuel using Nat.strongRecOn with
  | ind fuel ih =>
      intro level cs v ts h hskip
      match fuel, htokens : tokens cs with
      | 0, _ =>
          cases h
          cases hskip
      | fuel + 1, [] =>
          rw [htokens] at h
          cases h
          cases hskip
      | fuel + 1, t :: more =>
          have hfuel : ∀ n < fuel, DerivesValues n := fun n hn => ih n (Nat.lt_succ_of_lt hn)
          rw [htokens] at h
          cases t with
          | brokenString b | broken b | endArray | endObject | colon | comma =>
              cases h
              cases hskip
          | word v =>
              cases h
              refine derived_of_lexeme htokens id fun lexeme hlexeme => ?_
              cases hlexeme with
              | null => exact .null
              | bool b => exact .word b
          | number n =>
              cases h
              refine derived_of_lexeme htokens id fun lexeme hlexeme => ?_
              cases hlexeme with
              | number hnumber => exact .number hnumber
          | string s =>
              cases h
              refine derived_of_lexeme htokens id fun lexeme hlexeme => ?_
              cases hlexeme with
              | string hraw => exact .string hraw
          | beginArray =>
              obtain ⟨before, body, hbefore, rfl, rfl⟩ := tokens_eq_mark htokens isMark_beginArray
              obtain ⟨space, items, rest, hspace, hitems, heq, hrest⟩ :=
                array_of_readValue hfuel h hskip
              exact ⟨before, arrayText space items, rest, hbefore, .array hspace hitems,
                by rw [heq], hrest⟩
          | beginObject =>
              obtain ⟨before, body, hbefore, rfl, rfl⟩ := tokens_eq_mark htokens isMark_beginObject
              obtain ⟨space, members, rest, hspace, hmembers, heq, hrest⟩ :=
                object_of_readValue hfuel h hskip
              exact ⟨before, objectText space members, rest, hbefore, .object hspace hmembers,
                by rw [heq], hrest⟩

/-- **The texts that can be skipped to their end are the JSON texts**. -/
theorem isText_iff_skip (text : String) :
    IsText text.toList ↔ (read text).1.skip = .ok () ∧ (read text).2 = false := by
  constructor
  · rintro ⟨p, hp, htext⟩
    rw [read_of_isValue hp htext]
    exact ⟨hp.skip_readingOf 0, rfl⟩
  · rintro ⟨hskip, hend⟩
    obtain ⟨⟨v, ts⟩, hread⟩ : ∃ r, readValue (2 * (tokens text.toList).length + 1) 0
      (tokens text.toList) = r := ⟨_, rfl⟩
    simp only [read, hread, Bool.not_eq_eq_eq_not, Bool.not_false, List.isEmpty_iff] at hskip hend
    obtain ⟨before, value, after, hbefore, hvalue, htext, hafter⟩ :=
      derivesValues _ hread hskip
    exact ⟨⟨before, value, after, hbefore, isSpaces_of_tokens (hafter.trans hend)⟩, hvalue, htext⟩

/-! ## decoders -/

/-- The only closing a decoder lets pass is the bracket that was due. -/
theorem closed_of_kept {closing : Closing} (h : passing closing.kept? = .ok ()) :
    closing = .closed := by
  rw [passing_eq_ok] at h
  cases closing <;> first | rfl | cases h

/-- The decoder reads its values to their ends. -/
def Decoder.Finishes {α : Type} (d : Decoder α) : Prop := ∀ v a, d v = .ok a → v.skip = .ok ()

namespace Decoder

variable {α : Type}

/-- **A decoder that finishes accepts JSON texts only**. -/
theorem Finishes.isText {d : Decoder α} (h : d.Finishes) {text : String} {a : α}
    (hdecode : Json.decode d text = .ok a) : IsText text.toList := by
  rw [isText_iff_skip]
  rw [Json.decode] at hdecode
  dsimp only at hdecode
  split at hdecode
  · cases hdecode
  · next b hb =>
      split at hdecode
      · cases hdecode
      · next hend => exact ⟨h _ _ hb, Bool.not_eq_true _ ▸ hend⟩

/-- A decoder of strings has read its string to the end when it succeeds. -/
theorem finishes_string : Decoder.string.Finishes := by
  intro v s h
  rw [string.eq_def] at h
  split at h
  · rfl
  · cases h

/-- A decoder of numbers fails on everything that is not a whole number. -/
theorem finishes_natural : natural.Finishes := by
  intro v n h
  rw [natural.eq_def] at h
  split at h
  · rfl
  · cases h

/-- The word `null` is one more text that is read to its end. -/
theorem Finishes.option {d : Decoder α} (h : d.Finishes) : (Decoder.option d).Finishes := by
  intro v a hoption
  rw [Decoder.option.eq_def] at hoption
  split at hoption
  · rfl
  · cases hd : d v with
    | error e =>
        rw [hd] at hoption
        cases hoption
    | ok b => exact h v b hd

/-- The `null`-tolerant decoder of texts is the optional one with a default. -/
theorem finishes_nullableString : nullableString.Finishes := by
  intro v s h
  rw [nullableString.eq_def] at h
  split at h
  · rfl
  · exact finishes_string v s h

/-- A list is decoded item by item, so each of its items was read to the end. -/
theorem Finishes.each {d : Decoder α} (h : d.Finishes) {items : List Reading} {as : List α}
    (heach : Decoder.each d items = .ok as) : ∀ v ∈ items, v.skip = .ok () := by
  induction items generalizing as with
  | nil => exact List.forall_mem_nil _
  | cons v items ih =>
      obtain ⟨a, ha, heach⟩ := bind_eq_ok.mp heach
      obtain ⟨more, hmore, -⟩ := bind_eq_ok.mp heach
      exact List.forall_mem_cons.mpr ⟨h v a ha, ih hmore⟩

/-- An array that decodes was closed, and its items were read to the end. -/
theorem Finishes.list {d : Decoder α} (h : d.Finishes) : (Decoder.list d).Finishes := by
  intro v as hlist
  rw [Decoder.list.eq_def] at hlist
  split at hlist
  · obtain ⟨bs, hbs, hlist⟩ := bind_eq_ok.mp hlist
    obtain ⟨_, hclosing, _⟩ := bind_eq_ok.mp hlist
    rw [closed_of_kept hclosing, Reading.skip_array]
    exact ⟨h.each hbs, rfl⟩
  · cases hlist

end Decoder

namespace Fields

variable {α β : Type}

/-- The fields read what they take to its end. -/
structure Finish (f : Fields α) : Prop where
  member : ∀ st name v st', f.member st name v = some (.ok st') → v.skip = .ok ()
  items : ∀ st vs closing st' rest, f.items st vs closing = .ok (st', rest) →
    ∃ taken, vs = taken ++ rest ∧ ∀ v ∈ taken, v.skip = .ok ()

/-- A single field either decodes a member or passes it by, and both read it to the end. -/
theorem finish_single (names : List String) {d : Decoder α} (h : d.Finishes)
    (absent unlisted : Option α) : (single names d absent unlisted).Finish := by
  constructor
  · intro st name v st' hmember
    obtain ⟨-, -, a, ha, -⟩ := single_member_eq_ok.mp hmember
    exact h v a ha
  · intro st vs closing st' rest hitems
    dsimp only [single] at hitems
    split at hitems
    · next v more =>
        cases hd : d v with
        | error e =>
            rw [hd] at hitems
            cases hitems
        | ok a =>
            rw [hd] at hitems
            cases hitems
            exact ⟨[v], rfl, List.forall_mem_singleton.mpr (h v a hd)⟩
    · split at hitems
      · cases hitems
      · split at hitems
        · cases hitems
          exact ⟨[], rfl, List.forall_mem_nil _⟩
        · cases hitems

/-- A default changes nothing in what the decoder reads. -/
theorem finish_withDefault (name : String) {d : Decoder α} (h : d.Finishes) (a : α) :
    (withDefault name d a).Finish := finish_single [name] h _ _

/-- What is made of the fields afterwards does not matter to the reading. -/
theorem Finish.map {f : Fields α} (h : f.Finish) (make : α → β) : (make <$> f).Finish :=
  ⟨h.member, h.items⟩

/-- Of two decoders side by side, each reads its own members and they share the unknown
ones. -/
theorem Finish.seq {f : Fields (α → β)} {g : Fields α} (hf : f.Finish) (hg : g.Finish) :
    (f <*> g).Finish := by
  refine Finish.map (f := both f g) ⟨?_, ?_⟩ fun p => p.1 p.2
  · intro st name v st' hmember
    obtain ⟨s, hs, -⟩ | ⟨-, t, ht, -⟩ := both_member_eq_ok.mp hmember
    · exact hf.member _ _ _ _ hs
    · exact hg.member _ _ _ _ ht
  · intro st vs closing st' rest hitems
    obtain ⟨⟨s, rest'⟩, hs, hitems⟩ := bind_eq_ok.mp hitems
    obtain ⟨⟨t, rest''⟩, ht, hitems⟩ := bind_eq_ok.mp hitems
    cases hitems
    obtain ⟨taken, rfl, htaken⟩ := hf.items _ _ _ _ _ hs
    obtain ⟨taken', rfl, htaken'⟩ := hg.items _ _ _ _ _ ht
    exact ⟨taken ++ taken', by rw [List.append_assoc],
      List.forall_mem_append.mpr ⟨htaken, htaken'⟩⟩

/-- Every member of an object that decodes was read to its end, known or not. -/
theorem Finish.members {f : Fields α} (h : f.Finish) {st st' : f.State}
    {ms : List (Quoted × Reading)} (hms : f.members st ms = .ok st') :
    ∀ m ∈ ms, m.2.skip = .ok () := by
  rw [members_eq_foldlM] at hms
  induction ms generalizing st with
  | nil => exact List.forall_mem_nil _
  | cons m ms ih =>
      rw [List.foldlM_cons] at hms
      obtain ⟨s, hs, hms⟩ := bind_eq_ok.mp hms
      obtain ⟨name, -, htaken | ⟨-, hskip, -⟩⟩ := take_eq_ok.mp hs
      · exact List.forall_mem_cons.mpr ⟨h.member _ _ _ _ htaken, ih hms⟩
      · exact List.forall_mem_cons.mpr ⟨hskip, ih hms⟩

/-- **A record is read to its end**, whether it is written as an object or as an array. -/
theorem Finish.decode {f : Fields α} (h : f.Finish) : f.decode.Finishes := by
  intro v a hdecode
  rw [Fields.decode.eq_def] at hdecode
  split at hdecode
  · obtain ⟨st, hst, hdecode⟩ := bind_eq_ok.mp hdecode
    obtain ⟨_, hclosing, _⟩ := bind_eq_ok.mp hdecode
    rw [closed_of_kept hclosing, Reading.skip_object]
    exact ⟨h.members hst, rfl⟩
  · obtain ⟨⟨st, rest⟩, hst, hdecode⟩ := bind_eq_ok.mp hdecode
    dsimp only at hdecode
    split at hdecode
    · next hrest =>
        obtain ⟨_, hclosing, _⟩ := bind_eq_ok.mp hdecode
        obtain ⟨taken, rfl, htaken⟩ := h.items _ _ _ _ _ hst
        rw [closed_of_kept hclosing, Reading.skip_array, List.isEmpty_iff.mp hrest,
          List.append_nil]
        exact ⟨htaken, rfl⟩
    · cases hdecode
  · cases hdecode

end Fields

end BindingSynthesis.Json
