import BindingSynthesis.HostName
import BindingSynthesis.Proofs.JavaComments

/-!
# BindingSynthesis.Proofs.JavaTokens

The tokens of Java source.

```
source    /** … */⏎␣␣public Object f(Object arg0) {⏎ … i.set("self", pyObj);⏎ …
tokens    public · Object · f · ( · Object · arg0 · ) · { · … · i.set · ( · "self" · …
```

1. The scanner drops blanks and block comments.  A word is a name or names with dots
   between them, and a literal is read back to its text (`scans_literal`).
2. A backslash is only read in a literal and only in front of one letter, so no
   Unicode escape is missed.  A comment without one is passed over if it is closed
   (`scans_blockComment`).
3. Stretches of source are scanned one after the other (`Scans.append`), and items
   with something between them one by one (`scans_joined`).
-/

namespace BindingSynthesis.Java

open CommentText

/-! ## tokens -/

inductive Token where
  /-- A name, or names with dots between them. -/
  | word (s : String)
  /-- A string literal with this text. -/
  | text (s : String)
  | mark (c : Char)
  deriving DecidableEq

/-- What the scanner is inside of. -/
inductive Mode where
  | code
  /-- The word that is the last token. -/
  | word
  /-- The literal that is the last token. -/
  | text
  /-- Behind a backslash in a literal. -/
  | escape
  /-- Behind the slash that starts a comment. -/
  | slash
  | comment
  /-- Behind a star in a comment. -/
  | star
  deriving DecidableEq

structure Scan where
  mode : Mode
  /-- The tokens so far, the last one first. -/
  tokens : List Token

/-- A character of a word. -/
def isPathChar (c : Char) : Bool := HostName.isWordChar c || c = '.'

/-- A character that is a token. -/
def isMark (c : Char) : Bool := ['(', ')', '{', '}', ',', ';', '='].contains c

/-- The character that an escape stands for. -/
def unescape? (c : Char) : Option Char :=
  if c = '"' then some '"'
  else if c = '\\' then some '\\'
  else if c = 'n' then some '\n'
  else if c = 'r' then some '\r'
  else if c = 't' then some '\t'
  else none

/-- The last token with one more character. -/
def extend (c : Char) : List Token → List Token
  | .word s :: more => .word (s.push c) :: more
  | .text s :: more => .text (s.push c) :: more
  | ts => ts

namespace Scan

/-- Scans a character outside of literals and comments. -/
def stepCode (s : Scan) (c : Char) : Option Scan :=
  if isPathChar c then
    some ⟨.word, if s.mode = .word then extend c s.tokens
      else .word (String.singleton c) :: s.tokens⟩
  else if c = ' ' ∨ c = '\n' then some ⟨.code, s.tokens⟩
  else if c = '"' then some ⟨.text, .text "" :: s.tokens⟩
  else if c = '/' then some ⟨.slash, s.tokens⟩
  else if isMark c then some ⟨.code, .mark c :: s.tokens⟩
  else none

/-- Scans a character. -/
def step (s : Scan) (c : Char) : Option Scan :=
  match s.mode with
  | .code | .word => s.stepCode c
  | .text =>
    if c = '"' then some ⟨.code, s.tokens⟩
    else if c = '\\' then some ⟨.escape, s.tokens⟩
    else if c = '\n' ∨ c = '\r' then none
    else some ⟨.text, extend c s.tokens⟩
  | .escape => (unescape? c).map fun d => ⟨.text, extend d s.tokens⟩
  | .slash => if c = '*' then some ⟨.comment, s.tokens⟩ else none
  | .comment | .star =>
    if c = '\\' then none
    else if c = '*' then some ⟨.star, s.tokens⟩
    else if c = '/' ∧ s.mode = .star then some ⟨.code, s.tokens⟩
    else some ⟨.comment, s.tokens⟩

end Scan

/-- The tokens of a source that ends outside of literals and comments. -/
def tokens? (source : String) : Option (List Token) :=
  match source.toList.foldlM Scan.step ⟨.code, []⟩ with
  | some ⟨.code, ts⟩ | some ⟨.word, ts⟩ => some ts.reverse
  | _ => none

/-! ## stretches of source -/

/-- Outside of literals and comments. -/
def Mode.IsCode (m : Mode) : Prop := m = .code ∨ m = .word

/-- The scanner goes through a stretch of source, and finds these tokens in it. -/
def Scans (m : Mode) (cs : List Char) (ts : List Token) (m' : Mode) : Prop :=
  ∀ before, cs.foldlM Scan.step ⟨m, before⟩ = some ⟨m', ts.reverse ++ before⟩

theorem Scans.nil (m : Mode) : Scans m [] [] m := fun _ => rfl

/-- Text may be scanned piece by piece, from the mode where the last piece stopped. -/
theorem Scans.append {m m' m'' : Mode} {xs ys : List Char} {ts us : List Token}
    (h : Scans m xs ts m') (h' : Scans m' ys us m'') : Scans m (xs ++ ys) (ts ++ us) m'' := by
  intro before
  rw [List.foldlM_append, h, List.reverse_append, List.append_assoc]
  exact h' _

/-- A single character, from the step that it takes. -/
theorem scans_of_step {m m' : Mode} {c : Char} {ts : List Token}
    (h : ∀ before, Scan.step ⟨m, before⟩ c = some ⟨m', ts.reverse ++ before⟩) :
    Scans m [c] ts m' := by
  intro before
  rw [List.foldlM_cons, h]
  rfl

/-- A mark is a token by itself and ends a word before it. -/
theorem scans_mark {m : Mode} (hm : m.IsCode) {c : Char} (hc : isMark c = true) :
    Scans m [c] [.mark c] .code := by
  simp only [isMark, List.contains_eq_mem, List.mem_cons, List.not_mem_nil, or_false,
    decide_eq_true_eq] at hc
  obtain rfl | rfl := hm <;> obtain rfl | rfl | rfl | rfl | rfl | rfl | rfl := hc <;>
    exact scans_of_step fun _ => rfl

/-- A blank ends a word too, and leaves no token. -/
theorem scans_space {m : Mode} (hm : m.IsCode) : Scans m [' '] [] .code := by
  obtain rfl | rfl := hm <;> exact scans_of_step fun _ => rfl

/-- So does a line break. -/
theorem scans_newline {m : Mode} (hm : m.IsCode) : Scans m ['\n'] [] .code := by
  obtain rfl | rfl := hm <;> exact scans_of_step fun _ => rfl

/-- The characters of a word. -/
def IsPath (s : String) : Prop := s ≠ "" ∧ ∀ c ∈ s.toList, isPathChar c = true

instance (s : String) : Decidable (IsPath s) :=
  decidable_of_iff (s ≠ "" ∧ s.toList.all isPathChar = true) (and_congr_right' List.all_eq_true)

/-- The characters of a path are added to the word that is being read. -/
theorem foldlM_step_word {cs : List Char} (h : ∀ c ∈ cs, isPathChar c = true) (s : String)
    (before : List Token) :
    cs.foldlM Scan.step ⟨.word, .word s :: before⟩ =
      some ⟨.word, .word (s ++ String.ofList cs) :: before⟩ := by
  induction cs generalizing s with
  | nil => simp
  | cons c cs ih =>
      rw [List.forall_mem_cons] at h
      have hstep : Scan.step ⟨.word, .word s :: before⟩ c =
          some ⟨.word, .word (s.push c) :: before⟩ := by
        change Scan.stepCode _ c = _
        rw [Scan.stepCode, if_pos h.1]
        rfl
      have htext : s.push c ++ String.ofList cs = s ++ String.ofList (c :: cs) := by
        apply String.toList_injective
        simp
      rw [List.foldlM_cons, hstep]
      exact (ih h.2 _).trans (by rw [htext])

/-- A path is scanned to one word, which is still open at its end. -/
theorem scans_word {s : String} (h : IsPath s) : Scans .code s.toList [.word s] .word := by
  obtain ⟨hne, hchars⟩ := h
  intro before
  obtain ⟨c, cs, hs⟩ : ∃ c cs, s.toList = c :: cs :=
    List.exists_cons_of_ne_nil fun h => hne (String.toList_eq_nil_iff.mp h)
  rw [hs, List.forall_mem_cons] at hchars
  have hstep : Scan.step ⟨.code, before⟩ c =
      some ⟨.word, .word (String.singleton c) :: before⟩ := by
    change Scan.stepCode _ c = _
    rw [Scan.stepCode, if_pos hchars.1]
    rfl
  have htext : String.singleton c ++ String.ofList cs = s := by
    apply String.toList_injective
    simp [hs]
  rw [hs, List.foldlM_cons, hstep]
  exact (foldlM_step_word hchars.2 _ _).trans (by rw [htext]; rfl)

/-! ## literals and comments -/

/-- In a string, the escaped form of a character is added as that character. -/
theorem foldlM_step_escapeChar (c : Char) (s : String) (before : List Token) :
    (escapeChar c).foldlM Scan.step ⟨.text, .text s :: before⟩ =
      some ⟨.text, .text (s.push c) :: before⟩ := by
  by_cases hquote : c = '"'
  · subst hquote; rfl
  by_cases hbackslash : c = '\\'
  · subst hbackslash; rfl
  by_cases hfeed : c = '\n'
  · subst hfeed; rfl
  by_cases hreturn : c = '\r'
  · subst hreturn; rfl
  by_cases htab : c = '\t'
  · subst htab; rfl
  have hplain : escapeChar c = [c] := by simp [escapeChar, *]
  have hstep : Scan.step ⟨.text, .text s :: before⟩ c =
      some ⟨.text, .text (s.push c) :: before⟩ := by
    simp [Scan.step, extend, *]
  rw [hplain, List.foldlM_cons, hstep]
  rfl

/-- So an escaped text is added as the text. -/
theorem foldlM_step_escape (cs : List Char) (s : String) (before : List Token) :
    (escape cs).foldlM Scan.step ⟨.text, .text s :: before⟩ =
      some ⟨.text, .text (s ++ String.ofList cs) :: before⟩ := by
  induction cs generalizing s with
  | nil => simp
  | cons c cs ih =>
      have htext : s.push c ++ String.ofList cs = s ++ String.ofList (c :: cs) := by
        apply String.toList_injective
        simp
      rw [escape_cons, List.foldlM_append, foldlM_step_escapeChar]
      exact (ih _).trans (by rw [htext])

/-- **A literal is read back to its text**. -/
theorem scans_literal {m : Mode} (hm : m.IsCode) (s : String) :
    Scans m (literal s).toList [.text s] .code := by
  have hopen : ∀ before, Scan.step ⟨m, before⟩ '"' = some ⟨.text, .text "" :: before⟩ := by
    obtain rfl | rfl := hm <;> exact fun _ => rfl
  intro before
  rw [toList_literal, List.cons_append, List.foldlM_cons, hopen]
  change (escape s.toList ++ ['"']).foldlM Scan.step ⟨.text, .text "" :: before⟩ = _
  rw [List.foldlM_append, foldlM_step_escape, String.empty_append, String.ofList_toList]
  rfl

/-- What is left of a comment, behind a star or not, up to its end. -/
theorem scans_commentEnd {m : Mode} (hm : m = .comment ∨ m = .star) {cs : List Char}
    (hend : ¬commentEnd <:+: if m = .star then '*' :: cs else cs) (hbackslash : '\\' ∉ cs) :
    Scans m (cs ++ commentEnd) [] .code := by
  induction cs generalizing m with
  | nil =>
      intro before
      obtain rfl | rfl := hm <;> rfl
  | cons c cs ih =>
      rw [List.mem_cons, not_or] at hbackslash
      have hmore : ¬commentEnd <:+: cs := fun h => hend <| by
        split
        · exact (h.trans (List.suffix_cons _ _).isInfix).trans (List.suffix_cons _ _).isInfix
        · exact h.trans (List.suffix_cons _ _).isInfix
      by_cases hstar : c = '*'
      · subst hstar
        have hstep : Scans m ['*'] [] .star := by
          obtain rfl | rfl := hm <;> exact scans_of_step fun _ => rfl
        refine hstep.append (ih (.inr rfl) ?_ hbackslash.2)
        rw [if_pos rfl]
        refine fun h => hend ?_
        split
        · exact h.trans (List.suffix_cons _ _).isInfix
        · exact h
      · have hslash : ¬(c = '/' ∧ m = .star) := by
          rintro ⟨rfl, rfl⟩
          exact hend (List.prefix_append ['*', '/'] cs).isInfix
        have hstep : Scans m [c] [] .comment := scans_of_step fun before => by
          obtain rfl | rfl := hm <;> simp_all [Scan.step, Ne.symm hbackslash.1]
        refine hstep.append (ih (.inl rfl) ?_ hbackslash.2)
        rwa [if_neg (by decide)]

/-- **A block comment is passed over** if it is closed. -/
theorem scans_blockComment {text : String} (h : FitsComment text.toList) :
    Scans .code (blockComment "  " text).toList [] .code := by
  obtain ⟨rest, hrest⟩ : ∃ rest, commentBody "  ".toList text.toList =
      [' '] ++ ([' '] ++ (['/'] ++ (['*'] ++ rest))) := ⟨_, rfl⟩
  have hindent : ∀ c ∈ "  ".toList, c = ' ' := by simp
  obtain ⟨hend, hbackslash⟩ : ¬commentEnd <:+: rest ∧ '\\' ∉ rest := by
    have hsuffix : rest <:+ commentBody "  ".toList text.toList := by
      rw [hrest]
      exact ((((List.suffix_append _ _).trans (List.suffix_append _ _)).trans
        (List.suffix_append _ _)).trans (List.suffix_append _ _))
    rw [FitsComment, ← commentEnd_infix_commentBody hindent, ← backslash_mem_commentBody hindent]
      at h
    exact ⟨fun hpart => h.1 (hpart.trans hsuffix.isInfix), fun hmem => h.2 (hsuffix.subset hmem)⟩
  have hslash : Scans .code ['/'] [] .slash := scans_of_step fun _ => rfl
  have hstar : Scans .slash ['*'] [] .comment := scans_of_step fun _ => rfl
  have hclosed : Scans .comment (rest ++ commentEnd) [] .code :=
    scans_commentEnd (.inl rfl) (by rwa [if_neg (by decide)]) hbackslash
  have hnewline := scans_newline (.inl rfl)
  have hall := (scans_space (.inl rfl)).append <| (scans_space (.inl rfl)).append <|
    hslash.append <| hstar.append <| hclosed.append hnewline
  rw [toList_blockComment, hrest]
  simpa only [List.append_assoc, List.nil_append] using hall

/-! ## words and items -/

/-- A stretch of code is scanned into these tokens, from code to code. -/
def Spells (cs : List Char) (ts : List Token) : Prop := ∃ m : Mode, m.IsCode ∧ Scans .code cs ts m

/-- An end that is read the same behind a word and behind anything else. -/
theorem Spells.append {xs ys : List Char} {ts us : List Token} (h : Spells xs ts)
    (h' : ∀ m : Mode, m.IsCode → Scans m ys us .code) : Scans .code (xs ++ ys) (ts ++ us) .code := by
  obtain ⟨m, hm, hscan⟩ := h
  exact hscan.append (h' m hm)

/-- A path spells its one word. -/
theorem spells_word {s : String} (h : IsPath s) : Spells s.toList [.word s] :=
  ⟨.word, .inr rfl, scans_word h⟩

/-- Items that are spelled one by one, with something between them and something behind
them. -/
theorem scans_joined {α : Type} (text : α → String) (tokens : α → List Token) {sep : String}
    {sepTokens : List Token} {ending : List Char} {endTokens : List Token}
    (hsep : ∀ m : Mode, m.IsCode → Scans m sep.toList sepTokens .code)
    (hend : ∀ m : Mode, m.IsCode → Scans m ending endTokens .code) (items : List α)
    (h : ∀ x ∈ items, Spells (text x).toList (tokens x)) :
    Scans .code ((Text.joined sep (items.map text)).toList ++ ending)
      (sepTokens.intercalate (items.map tokens) ++ endTokens) .code := by
  induction items with
  | nil => exact hend _ (.inl rfl)
  | cons x more ih =>
      rw [List.forall_mem_cons] at h
      cases more with
      | nil => simpa using h.1.append hend
      | cons y more => simpa using (h.1.append hsep).append (ih h.2)

end BindingSynthesis.Java
