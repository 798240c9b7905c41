import BindingSynthesis.Text.Utf8
import Mathlib.Tactic.SplitIfs

/-!
# BindingSynthesis.Proofs.LossyDecoding

Lossy decoding of octets that hold a text among others.

```
octets    …any octets…  encode s  …any octets…
text      …characters…     s      …characters…
```

1. A character that has begun only takes octets from `0x80` to `0xBF`, and no encoded
   character starts with such an octet (`first_utf8EncodeChar`).  So whatever stands before
   an encoded character is decoded by itself (`decodeLossyFrom_append`).
2. An encoded character is decoded to itself and leaves nothing owed
   (`decodeLossyFrom_utf8EncodeChar`).
3. Hence a text survives, whatever octets stand around it (`decodeLossy_around`).
-/

namespace BindingSynthesis.Text.Utf8

/-! ## characters that have begun -/

/-- The octet continues a character, and starts none. -/
def IsContinuation (octet : UInt8) : Prop := 0x80 ≤ octet.toNat ∧ octet.toNat ≤ 0xBF

instance : DecidablePred IsContinuation := fun octet =>
  inferInstanceAs (Decidable (0x80 ≤ octet.toNat ∧ octet.toNat ≤ 0xBF))

/-- The next octet that is owed is one that continues a character. -/
def Begun.IsSound (b : Begun) : Prop := 0x80 ≤ b.low ∧ b.high ≤ 0xBF

theorem isSound_of_first {octet : UInt8} {b : Begun} (h : first octet = .begin b) : b.IsSound := by
  simp only [first] at h
  split_ifs at h <;> simp only [Step.begin.injEq] at h <;> subst h <;>
    simp [Begun.IsSound]

theorem Begun.isSound_of_next {octet : UInt8} {b b' : Begun} (h : b.next octet = .begin b') :
    b'.IsSound := by
  simp only [Begun.next] at h
  split at h
  · cases h
  · split at h
    · cases h
    · simp only [Step.begin.injEq] at h
      subst h
      simp [Begun.IsSound]

/-- An octet that starts a character ends one that has begun. -/
theorem Begun.IsSound.next_eq_refuse {octet : UInt8} {b : Begun} (hb : b.IsSound)
    (h : ¬IsContinuation octet) : b.next octet = .refuse := by
  simp only [Begun.IsSound, IsContinuation] at hb h
  rw [Begun.next]
  exact if_pos (by omega)

/-- What is decoded from between characters or inside a sound one. -/
def IsSoundState (state : Option Begun) : Prop := ∀ b ∈ state, b.IsSound

theorem isSoundState_none : IsSoundState none := by simp [IsSoundState]

theorem isSoundState_some {b : Begun} : IsSoundState (some b) ↔ b.IsSound := by
  simp [IsSoundState]

/-- An octet that is refused inside a character is taken afresh. -/
theorem decodeLossyFrom_refused {b : Begun} {octet : UInt8} (h : b.next octet = .refuse)
    (rest : List UInt8) :
    decodeLossyFrom (some b) (octet :: rest) =
      replacement :: decodeLossyFrom none (octet :: rest) := by
  simp only [decodeLossyFrom, h]

/-- **An octet that starts a character cuts the decoding**: what stands before it is decoded
by itself. -/
theorem decodeLossyFrom_append {state : Option Begun} (hstate : IsSoundState state)
    (before : List UInt8) {octet : UInt8} (h : ¬IsContinuation octet) (rest : List UInt8) :
    decodeLossyFrom state (before ++ octet :: rest) =
      decodeLossyFrom state before ++ decodeLossyFrom none (octet :: rest) := by
  induction before generalizing state with
  | nil =>
      cases state with
      | none => rfl
      | some b =>
          rw [List.nil_append, decodeLossyFrom_refused ((isSoundState_some.mp hstate).next_eq_refuse h)]
          rfl
  | cons x before ih =>
      -- From between characters, whether or not an octet was refused there.
      have hfresh : decodeLossyFrom none (x :: before ++ octet :: rest) =
          decodeLossyFrom none (x :: before) ++ decodeLossyFrom none (octet :: rest) := by
        rw [List.cons_append, decodeLossyFrom, decodeLossyFrom]
        cases hx : first x with
        | finish c => simp only [ih isSoundState_none, List.cons_append]
        | begin b => exact ih (isSoundState_some.mpr (isSound_of_first hx))
        | refuse => simp only [ih isSoundState_none, List.cons_append]
      cases state with
      | none => exact hfresh
      | some b =>
          cases hx : b.next x with
          | finish c => simp only [List.cons_append, decodeLossyFrom, hx, ih isSoundState_none]
          | begin b' =>
              simp only [List.cons_append, decodeLossyFrom, hx]
              exact ih (isSoundState_some.mpr (Begun.isSound_of_next hx))
          | refuse =>
              rw [List.cons_append, decodeLossyFrom_refused hx, decodeLossyFrom_refused hx,
                ← List.cons_append, hfresh, List.cons_append]

/-! ## encoded characters -/

theorem toNat_ofNat_octet {n : Nat} (h : n < 256) : (UInt8.ofNat n).toNat = n := by
  simp [Nat.mod_eq_of_lt h]

section

variable {bits more low high digit : Nat}

/-- The last octet that is owed ends the character. -/
theorem decodeLossyFrom_last (hdigit : digit < 64) (hlow : low ≤ digit + 0x80)
    (hhigh : digit + 0x80 ≤ high) (rest : List UInt8) :
    decodeLossyFrom (some ⟨bits, 0, low, high⟩) (UInt8.ofNat (digit + 0x80) :: rest) =
      Char.ofNat (bits * 64 + digit) :: decodeLossyFrom none rest := by
  rw [decodeLossyFrom, Begun.next, toNat_ofNat_octet (by omega)]
  dsimp only
  rw [if_neg (by omega), Nat.add_sub_cancel]

/-- Any other octet that is owed adds six bits to the character. -/
theorem decodeLossyFrom_more (hdigit : digit < 64) (hlow : low ≤ digit + 0x80)
    (hhigh : digit + 0x80 ≤ high) (rest : List UInt8) :
    decodeLossyFrom (some ⟨bits, more + 1, low, high⟩) (UInt8.ofNat (digit + 0x80) :: rest) =
      decodeLossyFrom (some ⟨bits * 64 + digit, more, 0x80, 0xBF⟩) rest := by
  rw [decodeLossyFrom, Begun.next, toNat_ofNat_octet (by omega)]
  dsimp only
  rw [if_neg (by omega), Nat.add_sub_cancel]

theorem first_ascii (h : digit < 0x80) :
    first (UInt8.ofNat digit) = .finish (Char.ofNat digit) := by
  rw [first, toNat_ofNat_octet (by omega)]
  exact if_pos h

theorem first_of_two (h : 2 ≤ digit) (h' : digit < 32) :
    first (UInt8.ofNat (digit + 0xC0)) = .begin ⟨digit, 0, 0x80, 0xBF⟩ := by
  rw [first, toNat_ofNat_octet (by omega)]
  rw [if_neg (by omega), if_neg (by omega), if_pos (by omega), Nat.add_sub_cancel]

/-- The range of the second octet leaves out what has a shorter form, and surrogates. -/
theorem first_of_three (h : digit < 16) :
    first (UInt8.ofNat (digit + 0xE0)) =
      .begin ⟨digit, 1, if digit = 0 then 0xA0 else 0x80, if digit = 0xD then 0x9F else 0xBF⟩ := by
  rw [first, toNat_ofNat_octet (by omega)]
  rw [if_neg (by omega), if_neg (by omega), if_neg (by omega), Nat.add_sub_cancel]
  by_cases hzero : digit = 0
  · simp [hzero]
  by_cases hsurrogate : digit = 0xD
  · simp [hsurrogate]
  rw [if_neg (by omega), if_neg (by omega), if_pos (by omega), if_neg hzero, if_neg hsurrogate]

/-- The range of the second octet leaves out what has a shorter form, and what is above the
last character. -/
theorem first_of_four (h : digit ≤ 4) :
    first (UInt8.ofNat (digit + 0xF0)) =
      .begin ⟨digit, 2, if digit = 0 then 0x90 else 0x80, if digit = 4 then 0x8F else 0xBF⟩ := by
  rw [first, toNat_ofNat_octet (by omega)]
  rw [if_neg (by omega), if_neg (by omega), if_neg (by omega), if_neg (by omega),
    if_neg (by omega), if_neg (by omega), Nat.add_sub_cancel]
  by_cases hzero : digit = 0
  · simp [hzero]
  by_cases hlast : digit = 4
  · simp [hlast]
  rw [if_neg (by omega), if_pos (by omega), if_neg hzero, if_neg hlast]

end

/-- **An encoded character** is decoded to itself, and nothing is owed behind it. -/
theorem decodeLossyFrom_utf8EncodeChar (c : Char) (rest : List UInt8) :
    decodeLossyFrom none (String.utf8EncodeChar c ++ rest) = c :: decodeLossyFrom none rest := by
  have hvalid : c.val.toNat < 0xD800 ∨ 0xDFFF < c.val.toNat ∧ c.val.toNat < 0x110000 := c.valid
  have hself : Char.ofNat c.val.toNat = c := Char.ofNat_toNat c
  rw [String.utf8EncodeChar]
  generalize c.val.toNat = v at hvalid hself
  split_ifs with hone htwo hthree
  · rw [List.singleton_append, decodeLossyFrom, first_ascii (by omega)]
    exact congrArg (· :: _) hself
  · have hvalue : v / 64 % 32 * 64 + v % 64 = v := by omega
    rw [List.cons_append, List.singleton_append, decodeLossyFrom,
      first_of_two (by omega) (by omega)]
    dsimp only
    rw [decodeLossyFrom_last (by omega) (by omega) (by omega), hvalue, hself]
  · have hvalue : (v / 4096 % 16 * 64 + v / 64 % 64) * 64 + v % 64 = v := by omega
    rw [List.cons_append, List.cons_append, List.singleton_append, decodeLossyFrom,
      first_of_three (by omega)]
    dsimp only
    rw [decodeLossyFrom_more (by omega) (by split_ifs <;> omega) (by split_ifs <;> omega),
      decodeLossyFrom_last (by omega) (by omega) (by omega), hvalue, hself]
  · have hvalue : ((v / 262144 % 8 * 64 + v / 4096 % 64) * 64 + v / 64 % 64) * 64 + v % 64 = v := by
      omega
    rw [List.cons_append, List.cons_append, List.cons_append, List.singleton_append,
      decodeLossyFrom, first_of_four (by omega)]
    dsimp only
    rw [decodeLossyFrom_more (by omega) (by split_ifs <;> omega) (by split_ifs <;> omega),
      decodeLossyFrom_more (by omega) (by omega) (by omega),
      decodeLossyFrom_last (by omega) (by omega) (by omega), hvalue, hself]

/-- An encoded character starts with an octet that continues none. -/
theorem utf8EncodeChar_eq_cons (c : Char) :
    ∃ octet more, String.utf8EncodeChar c = octet :: more ∧ ¬IsContinuation octet := by
  have hvalid : c.val.toNat < 0xD800 ∨ 0xDFFF < c.val.toNat ∧ c.val.toNat < 0x110000 := c.valid
  rw [String.utf8EncodeChar]
  generalize c.val.toNat = v at hvalid
  split_ifs with hone htwo hthree
  all_goals
    refine ⟨_, _, rfl, ?_⟩
    rw [IsContinuation, toNat_ofNat_octet (by omega)]
    omega

/-! ## texts among octets -/

@[simp] theorem decodeLossy_nil : decodeLossy [] = [] := rfl

/-- A text is decoded to itself, whatever follows it. -/
theorem decodeLossy_encode_append (s : String) (behind : List UInt8) :
    decodeLossy (encode s ++ behind) = s.toList ++ decodeLossy behind := by
  rw [encode]
  induction s.toList with
  | nil => rfl
  | cons c cs ih =>
      rw [List.flatMap_cons, List.append_assoc, decodeLossy, decodeLossyFrom_utf8EncodeChar]
      exact congrArg (c :: ·) ih

theorem decodeLossy_encode (s : String) : decodeLossy (encode s) = s.toList := by
  simpa using decodeLossy_encode_append s []

/-- **A text survives among octets**: it is decoded to itself, and the octets on both sides
as if it were not there, whatever they are. -/
theorem decodeLossy_around (before : List UInt8) {s : String} (hs : s ≠ "") (behind : List UInt8) :
    decodeLossy (before ++ encode s ++ behind) =
      decodeLossy before ++ s.toList ++ decodeLossy behind := by
  obtain ⟨c, cs, hcs⟩ : ∃ c cs, s.toList = c :: cs :=
    List.exists_cons_of_ne_nil (by simpa using hs)
  obtain ⟨octet, more, hc, hstarts⟩ := utf8EncodeChar_eq_cons c
  have hencode : encode s ++ behind = octet :: (more ++ cs.flatMap String.utf8EncodeChar ++ behind) := by
    rw [encode, hcs, List.flatMap_cons, hc]
    simp
  rw [List.append_assoc, hencode, decodeLossy, decodeLossyFrom_append isSoundState_none before hstarts,
    ← hencode, ← decodeLossy, ← decodeLossy, decodeLossy_encode_append, List.append_assoc]

end BindingSynthesis.Text.Utf8
