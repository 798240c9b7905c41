/-!
# BindingSynthesis.Text.Utf8

UTF-8 as a machine that takes one octet at a time.

1. Between characters the machine takes a whole ASCII character or the lead
   octet of a longer one; a lead octet fixes how many octets are owed and which
   range the next one must lie in.
2. `decode?` refuses a text with an octet the machine cannot take.
3. `decodeLossy` writes U+FFFD for each maximal run of octets that starts a
   character and cannot be completed, and takes the octet that broke the run
   afresh.
-/

namespace BindingSynthesis.Text.Utf8

/-- What stands for octets that are no character. -/
def replacement : Char := '\uFFFD'

/-- The octets of a text. -/
def encode (s : String) : List UInt8 := s.toList.flatMap String.utf8EncodeChar

/-- A character that has begun: the bits so far, the octets still owed less
one, and the range of the next octet. -/
structure Begun where
  bits : Nat
  more : Nat
  low : Nat
  high : Nat

/-- What an octet does between characters or inside one. -/
inductive Step where
  | finish (c : Char)
  | begin (b : Begun)
  | refuse

/-- The first octet of a character. -/
def first (octet : UInt8) : Step :=
  let n := octet.toNat
  if n < 0x80 then .finish (Char.ofNat n)
  else if n < 0xC2 then .refuse
  else if n < 0xE0 then .begin ⟨n - 0xC0, 0, 0x80, 0xBF⟩
  else if n = 0xE0 then .begin ⟨0, 1, 0xA0, 0xBF⟩
  else if n = 0xED then .begin ⟨0xD, 1, 0x80, 0x9F⟩
  else if n < 0xF0 then .begin ⟨n - 0xE0, 1, 0x80, 0xBF⟩
  else if n = 0xF0 then .begin ⟨0, 2, 0x90, 0xBF⟩
  else if n < 0xF4 then .begin ⟨n - 0xF0, 2, 0x80, 0xBF⟩
  else if n = 0xF4 then .begin ⟨4, 2, 0x80, 0x8F⟩
  else .refuse

/-- The next octet of a character that has begun. -/
def Begun.next (b : Begun) (octet : UInt8) : Step :=
  let n := octet.toNat
  if n < b.low ∨ b.high < n then .refuse
  else
    let bits := b.bits * 64 + (n - 0x80)
    match b.more with
    | 0 => .finish (Char.ofNat bits)
    | more + 1 => .begin ⟨bits, more, 0x80, 0xBF⟩

/-! ## Lossy decoding -/

/-- Decodes from between characters (`none`) or from inside one. -/
def decodeLossyFrom : Option Begun → List UInt8 → List Char
  | none, [] => []
  | some _, [] => [replacement]
  | none, octet :: rest => match first octet with
    | .finish c => c :: decodeLossyFrom none rest
    | .begin b => decodeLossyFrom (some b) rest
    | .refuse => replacement :: decodeLossyFrom none rest
  | some b, octet :: rest => match b.next octet with
    | .finish c => c :: decodeLossyFrom none rest
    | .begin b' => decodeLossyFrom (some b') rest
    | .refuse => replacement :: match first octet with
      | .finish c => c :: decodeLossyFrom none rest
      | .begin b' => decodeLossyFrom (some b') rest
      | .refuse => replacement :: decodeLossyFrom none rest

/-- The text of a sequence of octets, with U+FFFD where they are no UTF-8. -/
def decodeLossy (octets : List UInt8) : List Char := decodeLossyFrom none octets

/-! ## Strict decoding -/

/-- Decodes from between characters (`none`) or from inside one, if it can. -/
def decodeFrom? : Option Begun → List UInt8 → Option (List Char)
  | none, [] => some []
  | some _, [] => none
  | none, octet :: rest => match first octet with
    | .finish c => (decodeFrom? none rest).map (c :: ·)
    | .begin b => decodeFrom? (some b) rest
    | .refuse => none
  | some b, octet :: rest => match b.next octet with
    | .finish c => (decodeFrom? none rest).map (c :: ·)
    | .begin b' => decodeFrom? (some b') rest
    | .refuse => none

/-- The text of a sequence of octets, if they are UTF-8. -/
def decode? (octets : List UInt8) : Option String :=
  (decodeFrom? none octets).map String.ofList

end BindingSynthesis.Text.Utf8
