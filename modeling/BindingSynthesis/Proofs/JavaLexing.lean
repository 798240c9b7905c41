import BindingSynthesis.Java.Literal
import BindingSynthesis.Json.Token

/-!
# BindingSynthesis.Proofs.JavaLexing

String literals by the lexical rules of Java, which reads a source in two phases.

```
source   "a\\u0041\n😀"      characters
input    "a\\u0041\n😀"      UTF-16 code units, with Unicode escapes translated
value     a\u0041⏎😀         UTF-16 code units, with escape sequences translated
```

1. A backslash starts a Unicode escape only behind an even number of backslashes.  In
   a literal that is written here none does, so the first phase leaves it as it is
   (`translate_literal`).
2. Each escape of the literal is one escape sequence, and what stands for itself is
   neither a quote nor the end of a line, so the second phase ends the literal at its
   last quote (`readLiteral?_literal`).
3. UTF-16 is injective (`utf16_injective`), so the value of the literal is the text and
   no other (`literal_decodes`).
-/

namespace BindingSynthesis.Java

/-! ## code units -/

/-- The UTF-16 code units of a character. -/
def unitsOf (c : Char) : List Nat :=
  if c.toNat < 0x10000 then [c.toNat]
  else [0xD800 + (c.toNat - 0x10000) / 0x400, 0xDC00 + (c.toNat - 0x10000) % 0x400]

/-- The UTF-16 code units of a text. -/
def utf16 (cs : List Char) : List Nat := cs.flatMap unitsOf

@[simp] theorem utf16_nil : utf16 [] = [] := rfl

@[simp] theorem utf16_cons (c : Char) (cs : List Char) :
    utf16 (c :: cs) = unitsOf c ++ utf16 cs := by
  simp [utf16]

/-- The units of two texts are put one behind the other. -/
@[simp] theorem utf16_append (cs ds : List Char) : utf16 (cs ++ ds) = utf16 cs ++ utf16 ds := by
  simp [utf16]

/-- No character is a surrogate, and none is beyond the last plane. -/
theorem toNat_not_surrogate (c : Char) :
    c.toNat < 0xD800 ∨ 0xDFFF < c.toNat ∧ c.toNat < 0x110000 := c.valid

/-- The first character is read off the units of a text. -/
theorem unitsOf_append_inj {c d : Char} {xs ys : List Nat} (h : unitsOf c ++ xs = unitsOf d ++ ys) :
    c = d ∧ xs = ys := by
  have hc := toNat_not_surrogate c
  have hd := toNat_not_surrogate d
  rw [unitsOf, unitsOf] at h
  split at h <;> split at h <;>
    simp only [List.cons_append, List.nil_append, List.cons.injEq] at h
  · exact ⟨Char.toNat_inj.mp h.1, h.2⟩
  · omega
  · omega
  · refine ⟨Char.toNat_inj.mp ?_, h.2.2⟩
    omega

/-- Different texts have different units: a unit tells whether another one belongs to it. -/
theorem utf16_injective {cs ds : List Char} (h : utf16 cs = utf16 ds) : cs = ds := by
  have hne (c : Char) : unitsOf c ≠ [] := by
    rw [unitsOf]
    split <;> simp
  induction cs generalizing ds with
  | nil =>
      cases ds with
      | nil => rfl
      | cons d ds => simp [hne] at h
  | cons c cs ih =>
      cases ds with
      | nil => simp [hne] at h
      | cons d ds =>
          rw [utf16_cons, utf16_cons] at h
          obtain ⟨rfl, hmore⟩ := unitsOf_append_inj h
          rw [ih hmore]

/-! ## the first phase -/

/-- What the second phase reads: a code unit, or a Unicode escape without its digits. -/
inductive Input where
  | unit (n : Nat)
  | malformed
  deriving DecidableEq

/-- The unit of a Unicode escape, of which the text behind the backslash is given, and
what follows it: `u` any number of times, and four hexadecimal digits. -/
def unicodeEscape? (cs : List Char) : Option (Nat × List Char) :=
  match cs.dropWhile (· = 'u') with
  | a :: b :: c :: d :: rest => (Json.hexUnit? a b c d).map (·, rest)
  | _ => none

/-- An escape takes at least one character away, so the translation ends. -/
theorem length_unicodeEscape? {cs rest : List Char} {n : Nat}
    (h : unicodeEscape? cs = some (n, rest)) : rest.length < cs.length := by
  have hdrop := (List.dropWhile_suffix (· = 'u') (l := cs)).length_le
  rw [unicodeEscape?] at h
  split at h
  · next heq =>
      obtain ⟨n', -, hpair⟩ := Option.map_eq_some_iff.mp h
      cases hpair
      rw [heq] at hdrop
      simp only [List.length_cons] at hdrop
      omega
  · cases h

/-- Translates the Unicode escapes, behind an odd number of backslashes or not.  A
malformed one is an error wherever it stands, and nothing behind it is read. -/
def translateFrom (odd : Bool) : List Char → List Input
  | [] => []
  | c :: rest =>
    if c ≠ '\\' then (unitsOf c).map .unit ++ translateFrom false rest
    else if odd = true ∨ rest.head? ≠ some 'u' then .unit 0x5C :: translateFrom (!odd) rest
    else match _ : unicodeEscape? rest with
      | some (n, rest') => .unit n :: translateFrom false rest'
      | none => [.malformed]
termination_by cs => cs.length
decreasing_by
  · simp
  · simp
  · exact Nat.lt_succ_of_lt (length_unicodeEscape? ‹_›)

/-- The input of the second phase. -/
def translate (source : String) : List Input := translateFrom false source.toList

/-- Whatever is no backslash is translated to its units, and the count of backslashes
starts anew. -/
theorem translateFrom_of_ne {c : Char} (h : c ≠ '\\') (odd : Bool) (rest : List Char) :
    translateFrom odd (c :: rest) = (unitsOf c).map .unit ++ translateFrom false rest := by
  rw [translateFrom, if_pos h]

/-- A backslash stays where it is escaped itself or no `u` follows it. -/
theorem translateFrom_backslash {odd : Bool} {rest : List Char}
    (h : odd = true ∨ rest.head? ≠ some 'u') :
    translateFrom odd ('\\' :: rest) = .unit 0x5C :: translateFrom (!odd) rest := by
  rw [translateFrom, if_neg (not_not_intro rfl), if_pos h]

/-- A backslash and what it escapes are two characters to the first phase, unless a `u`
is escaped. -/
theorem translateFrom_escape {c : Char} (h : c ≠ 'u') (rest : List Char) :
    translateFrom false ('\\' :: c :: rest) =
      .unit 0x5C :: ((unitsOf c).map .unit ++ translateFrom false rest) := by
  have hfirst : (c :: rest).head? ≠ some 'u' := fun heq => h (Option.some.inj heq)
  rw [translateFrom_backslash (.inr hfirst)]
  by_cases hc : c = '\\'
  · subst hc
    exact congrArg (.unit 0x5C :: ·) (translateFrom_backslash (.inl rfl))
  · exact congrArg (.unit 0x5C :: ·) (translateFrom_of_ne hc _ rest)

/-- A character of a literal is written in one of these ways. -/
theorem escapeChar_cases (c : Char) :
    (∃ e, escapeChar c = ['\\', e] ∧ e ≠ 'u') ∨ escapeChar c = [c] ∧ c ≠ '\\' := by
  by_cases h : c ∈ ['"', '\\', '\n', '\r', '\t']
  · simp only [List.mem_cons, List.not_mem_nil, or_false] at h
    obtain rfl | rfl | rfl | rfl | rfl := h <;> exact .inl ⟨_, rfl, by decide⟩
  · simp only [List.mem_cons, List.not_mem_nil, or_false, not_or] at h
    exact .inr ⟨by simp [escapeChar, h], h.2.1⟩

/-- An escaped character has no unicode escape in it, and none starts at its end. -/
theorem translateFrom_escapeChar (c : Char) (rest : List Char) :
    translateFrom false (escapeChar c ++ rest) =
      (utf16 (escapeChar c)).map .unit ++ translateFrom false rest := by
  obtain ⟨e, hescape, he⟩ | ⟨hplain, hc⟩ := escapeChar_cases c
  · rw [hescape, utf16_cons, utf16_cons, utf16_nil, List.append_nil, List.map_append,
      List.append_assoc]
    exact translateFrom_escape he rest
  · rw [hplain, utf16_cons, utf16_nil, List.append_nil]
    exact translateFrom_of_ne hc false rest

/-- So the translation leaves an escaped text alone, whatever stands behind it. -/
theorem translateFrom_escaped (cs rest : List Char) :
    translateFrom false (escape cs ++ rest) =
      (utf16 (escape cs)).map .unit ++ translateFrom false rest := by
  induction cs with
  | nil => rfl
  | cons c cs ih =>
      rw [escape_cons, List.append_assoc, translateFrom_escapeChar, ih, utf16_append,
        List.map_append, List.append_assoc]

/-- The units of a literal are those of the escaped text between two quotes. -/
theorem utf16_literal (s : String) :
    utf16 (literal s).toList = 0x22 :: utf16 (escape s.toList) ++ [0x22] := by
  rw [toList_literal, utf16_append, utf16_cons]
  rfl

/-- **The first phase leaves a literal as it is**, and goes on behind it as at the start
of a source. -/
theorem translate_literal (s t : String) :
    translate (literal s ++ t) = (utf16 (literal s).toList).map .unit ++ translate t := by
  have hend : translateFrom false ('"' :: t.toList) = .unit 0x22 :: translate t :=
    translateFrom_of_ne (by decide) false t.toList
  have hbody := translateFrom_escaped s.toList ('"' :: t.toList)
  rw [hend] at hbody
  have hall := translateFrom_of_ne (c := '"') (by decide) false (escape s.toList ++ '"' :: t.toList)
  rw [hbody] at hall
  rw [translate, String.toList_append, utf16_literal, toList_literal]
  simpa [unitsOf] using hall

/-! ## the second phase -/

/-- What the letter of an escape sequence stands for. -/
def escapeLetter? (n : Nat) : Option Nat :=
  if n = 'b'.toNat then some 0x08
  else if n = 's'.toNat then some 0x20
  else if n = 't'.toNat then some 0x09
  else if n = 'n'.toNat then some 0x0A
  else if n = 'f'.toNat then some 0x0C
  else if n = 'r'.toNat then some 0x0D
  else if n = 0x22 ∨ n = 0x27 ∨ n = 0x5C then some n
  else none

def octalDigit? : Input → Option Nat
  | .unit n => if '0'.toNat ≤ n ∧ n ≤ '7'.toNat then some (n - '0'.toNat) else none
  | .malformed => none

/-- An octal number with at most so many further digits, and what follows it. -/
def readOctal (value : Nat) : Nat → List Input → Nat × List Input
  | 0, rest => (value, rest)
  | _ + 1, [] => (value, [])
  | limit + 1, i :: rest => match octalDigit? i with
    | some d => readOctal (8 * value + d) limit rest
    | none => (value, i :: rest)

/-- The escape sequence behind a backslash, and what follows it.  An octal one has up to
three digits, of which the first is at most `3`, or up to two. -/
def readEscape? : List Input → Option (Nat × List Input)
  | [] => none
  | i :: rest => match octalDigit? i, i with
    | some d, _ => some (readOctal d (if d ≤ 3 then 2 else 1) rest)
    | none, .unit n => (escapeLetter? n).map (·, rest)
    | none, .malformed => none

/-- Reading octal digits never gives input back. -/
theorem length_readOctal (value limit : Nat) (rest : List Input) :
    (readOctal value limit rest).2.length ≤ rest.length := by
  fun_induction readOctal value limit rest <;> grind

/-- An escape sequence takes at least one unit away, so the body is read in finitely many
steps. -/
theorem length_readEscape? {is rest : List Input} {n : Nat} (h : readEscape? is = some (n, rest)) :
    rest.length < is.length := by
  rw [readEscape?.eq_def] at h
  split at h
  · cases h
  · next i more =>
      split at h
      · next d _ =>
          have hoctal := length_readOctal d (if d ≤ 3 then 2 else 1) more
          rw [Option.some.inj h] at hoctal
          exact Nat.lt_succ_of_le hoctal
      · obtain ⟨n', -, hpair⟩ := Option.map_eq_some_iff.mp h
        cases hpair
        exact Nat.lt_succ_self _
      · cases h

/-- The value of a string literal, of which the input behind the first quote is given,
and what follows its last quote. -/
def readBody? : List Input → Option (List Nat × List Input)
  | [] | .malformed :: _ => none
  | .unit n :: rest =>
    if n = 0x22 then some ([], rest)
    else if n = 0x5C then match _ : readEscape? rest with
      | some (e, rest') => (readBody? rest').map (Prod.map (e :: ·) id)
      | none => none
    else if n = 0x0A ∨ n = 0x0D then none
    else (readBody? rest).map (Prod.map (n :: ·) id)
termination_by is => is.length
decreasing_by
  · exact Nat.lt_succ_of_lt (length_readEscape? ‹_›)
  · simp

/-- The value of the string literal that the input starts with, and what follows it. -/
def readLiteral? : List Input → Option (List Nat × List Input)
  | .unit 0x22 :: rest => readBody? rest
  | _ => none

/-- The input starts with three quotes, as a text block does. -/
def OpensTextBlock (is : List Input) : Prop := List.replicate 3 (.unit 0x22) <+: is

/-- The units that stand for themselves in a literal. -/
def IsPlainUnit (n : Nat) : Prop := n ≠ 0x22 ∧ n ≠ 0x5C ∧ n ≠ 0x0A ∧ n ≠ 0x0D

/-- Plain units are read as themselves. -/
theorem readBody?_plain {ns : List Nat} (h : ∀ n ∈ ns, IsPlainUnit n) (rest : List Input) :
    readBody? (ns.map .unit ++ rest) = (readBody? rest).map (Prod.map (ns ++ ·) id) := by
  induction ns with
  | nil =>
      rw [List.map_nil, List.nil_append]
      cases readBody? rest <;> rfl
  | cons n ns ih =>
      rw [List.forall_mem_cons] at h
      obtain ⟨⟨hquote, hbackslash, hfeed, hreturn⟩, hmore⟩ := h
      rw [List.map_cons, List.cons_append, readBody?, if_neg hquote, if_neg hbackslash,
        if_neg (not_or.mpr ⟨hfeed, hreturn⟩), ih hmore, Option.map_map]
      rfl

/-- An escape sequence is read as the one unit that it stands for. -/
theorem readBody?_escape {e n : Nat} {rest : List Input}
    (h : readEscape? (.unit e :: rest) = some (n, rest)) :
    readBody? (.unit 0x5C :: .unit e :: rest) = (readBody? rest).map (Prod.map (n :: ·) id) := by
  rw [readBody?, if_neg (by decide), if_pos rfl]
  split
  · next heq =>
      rw [h] at heq
      cases heq
      rfl
  · next heq =>
      rw [h] at heq
      cases heq

/-- A character that is written as itself has no unit of another meaning. -/
theorem isPlainUnit_of_mem_unitsOf {c : Char}
    (hc : c ≠ '"' ∧ c ≠ '\\' ∧ c ≠ '\n' ∧ c ≠ '\r') : ∀ n ∈ unitsOf c, IsPlainUnit n := by
  have hne {d : Char} (h : c ≠ d) : c.toNat ≠ d.toNat := fun heq => h (Char.toNat_inj.mp heq)
  rw [unitsOf]
  split
  · rw [List.forall_mem_singleton]
    exact ⟨hne hc.1, hne hc.2.1, hne hc.2.2.1, hne hc.2.2.2⟩
  · simp only [List.mem_cons, List.not_mem_nil, or_false, forall_eq_or_imp, forall_eq,
      IsPlainUnit]
    omega

/-- The escaped form of a character is read as the units of that character. -/
theorem readBody?_escapeChar (c : Char) (rest : List Input) :
    readBody? ((utf16 (escapeChar c)).map .unit ++ rest) =
      (readBody? rest).map (Prod.map (unitsOf c ++ ·) id) := by
  by_cases hquote : c = '"'
  · subst hquote; exact readBody?_escape rfl
  by_cases hbackslash : c = '\\'
  · subst hbackslash; exact readBody?_escape rfl
  by_cases hfeed : c = '\n'
  · subst hfeed; exact readBody?_escape rfl
  by_cases hreturn : c = '\r'
  · subst hreturn; exact readBody?_escape rfl
  by_cases htab : c = '\t'
  · subst htab; exact readBody?_escape rfl
  have hplain : escapeChar c = [c] := by simp [escapeChar, *]
  rw [hplain, utf16_cons, utf16_nil, List.append_nil]
  exact readBody?_plain (isPlainUnit_of_mem_unitsOf ⟨hquote, hbackslash, hfeed, hreturn⟩) rest

/-- Character by character, the escaped text is read as the text, up to the quote. -/
theorem readBody?_escaped (cs : List Char) (rest : List Input) :
    readBody? ((utf16 (escape cs)).map .unit ++ .unit 0x22 :: rest) = some (utf16 cs, rest) := by
  induction cs with
  | nil => rw [escape_nil, utf16_nil, List.map_nil, List.nil_append, readBody?, if_pos rfl]
  | cons c cs ih =>
      rw [escape_cons, utf16_append, List.map_append, List.append_assoc, readBody?_escapeChar, ih,
        utf16_cons]
      rfl

/-- **The second phase reads a literal to its last quote**, and its value is the text. -/
theorem readLiteral?_literal (s : String) (rest : List Input) :
    readLiteral? ((utf16 (literal s).toList).map .unit ++ rest) = some (utf16 s.toList, rest) := by
  rw [utf16_literal, List.map_append, List.append_assoc]
  exact readBody?_escaped s.toList rest

/-- Only behind the literal of the empty text a quote makes three. -/
theorem opensTextBlock_literal_iff (s : String) (rest : List Input) :
    OpensTextBlock ((utf16 (literal s).toList).map .unit ++ rest) ↔
      s = "" ∧ rest.head? = some (.unit 0x22) := by
  constructor
  · rintro ⟨more, hopens⟩
    -- Two of the quotes are a literal of the empty text.
    have hread : readLiteral? (List.replicate 3 (.unit 0x22) ++ more) =
        some ([], .unit 0x22 :: more) := by
      change readBody? (.unit 0x22 :: .unit 0x22 :: more) = _
      rw [readBody?, if_pos rfl]
    rw [hopens, readLiteral?_literal, Option.some.injEq, Prod.mk.injEq] at hread
    have hempty : s.toList = [] := utf16_injective hread.1
    exact ⟨String.toList_eq_nil_iff.mp hempty, by rw [hread.2]; rfl⟩
  · rintro ⟨rfl, hquote⟩
    obtain ⟨more, rfl⟩ := List.head?_eq_some_iff.mp hquote
    exact ⟨more, rfl⟩

/-- **A literal is read back to its text, and ends where it was ended**, whatever
follows it.  The first phase reads it apart from what follows, and the second phase
consumes it and nothing else; as UTF-16 is injective, no other text has the literal.
Three quotes, which are no literal, are read only behind the empty text: if what
follows it starts with a quote once Unicode escapes are translated. -/
theorem literal_decodes :
    (∀ s t : String,
      translate (literal s ++ t) = (utf16 (literal s).toList).map .unit ++ translate t ∧
      readLiteral? (translate (literal s ++ t)) = some (utf16 s.toList, translate t) ∧
      (OpensTextBlock (translate (literal s ++ t)) ↔
        s = "" ∧ (translate t).head? = some (.unit 0x22))) ∧
    Function.Injective literal := by
  refine ⟨fun s t => ?_, fun a b h => ?_⟩
  · rw [translate_literal]
    exact ⟨rfl, readLiteral?_literal s _, opensTextBlock_literal_iff s _⟩
  · have ha := readLiteral?_literal a []
    rw [h, readLiteral?_literal b []] at ha
    exact String.toList_injective (utf16_injective (congrArg Prod.fst (Option.some.inj ha))).symm

end BindingSynthesis.Java
