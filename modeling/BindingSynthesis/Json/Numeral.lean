import BindingSynthesis.Json.Reading
import BindingSynthesis.Text.Numeric

/-!
# BindingSynthesis.Json.Numeral

Written numbers: a sign, a whole part without leading zeros, a fraction, an
exponent.

1. A number with neither sign nor fraction nor exponent, below `2 ^ 64`, is a
   natural number of the domain.
2. Every other number is only asked whether double precision can hold its
   magnitude.  For that its leading digits are collected as long as they stay
   below `2 ^ 64`, and the product of these digits and the power of ten that is
   left is rounded to double precision at each step.
-/

namespace BindingSynthesis.Json

open Text

/-- The number that a list of digits writes. -/
def ofDigits (ds : List Char) : Nat := ds.foldl (fun n d => n * 10 + (d.toNat - 48)) 0

/-! ## The range of double precision -/

/-- A natural number rounded to 53 significant bits, a half to the even
neighbour. -/
def roundToDouble (n : Nat) : Nat :=
  if n < Nat.pow 2 53 then n
  else
    let shift := n.log2 - 52
    let unit := Nat.pow 2 shift
    let quotient := n / unit
    let rest := n % unit
    if unit < 2 * rest ∨ (2 * rest = unit ∧ quotient % 2 = 1) then (quotient + 1) * unit
    else quotient * unit

/-- Digits appended to a number as long as the result stays below `2 ^ 64`, and
the count of the digits left over. -/
def collect (n : Nat) : List Char → Nat × Nat
  | [] => (n, 0)
  | d :: ds =>
    let next := n * 10 + (d.toNat - 48)
    if next < UInt64.size then collect next ds else (n, ds.length + 1)

/-- The number `whole.fraction × 10 ^ exponent` is beyond double precision. -/
def isExcessive (whole fraction : List Char) (exponent : Int) : Bool :=
  let (leading, dropped) := collect 0 whole
  let (significand, unread) := collect leading fraction
  let power : Int := exponent + dropped - (fraction.length - unread : Nat)
  if significand = 0 ∨ power < 0 then false
  else if 308 < power then true
  else Nat.pow 2 1024 ≤
    roundToDouble (roundToDouble significand * roundToDouble (Nat.pow 10 power.toNat))

/-! ## Scanning -/

/-- A number that ends before its digits do: a reader that keeps it sees the
end of the text, one that skips it only a wrong number. -/
def cutNumber : List Char → Break
  | [] => ⟨.truncated, .malformed⟩
  | _ :: _ => .always .malformed

/-- The exponent, if one follows, and the rest. -/
def scanExponent : List Char → Except Break (Option Int × List Char)
  | c :: rest =>
    if c = 'e' ∨ c = 'E' then
      let (negative, unsigned) := match rest with
        | '-' :: r => (true, r)
        | '+' :: r => (false, r)
        | r => (false, r)
      let ds := unsigned.takeWhile isDigit
      if ds = [] then .error (cutNumber unsigned)
      else
        let n : Int := ofDigits ds
        .ok (some (if negative then -n else n), unsigned.dropWhile isDigit)
    else .ok (none, c :: rest)
  | [] => .ok (none, [])

/-- The fraction, if one follows, and the rest. -/
def scanFraction : List Char → Except Break (Option (List Char) × List Char)
  | '.' :: rest =>
    let ds := rest.takeWhile isDigit
    if ds = [] then .error (cutNumber rest) else .ok (some ds, rest.dropWhile isDigit)
  | rest => .ok (none, rest)

/-- The whole part and the rest. -/
def scanWhole : List Char → Except Break (List Char × List Char)
  | '0' :: rest => match rest with
    | [] => .ok (['0'], [])
    | d :: _ => if isDigit d then .error (.always .malformed) else .ok (['0'], rest)
  | rest =>
    let ds := rest.takeWhile isDigit
    if ds = [] then .error (cutNumber rest) else .ok (ds, rest.dropWhile isDigit)

/-- What a number with these parts is. -/
def Number.ofParts (negative : Bool) (whole : List Char) (fraction? : Option (List Char))
    (exponent? : Option Int) : Number :=
  if negative = false ∧ fraction? = none ∧ exponent? = none ∧ ofDigits whole < UInt64.size then
    .natural (ofDigits whole)
  else if isExcessive whole (fraction?.getD []) (exponent?.getD 0) then .excessive
  else .other

/-- The number that stands first in the text, and the rest. -/
def scanNumber (cs : List Char) : Except Break (Number × List Char) := do
  let (negative, unsigned) := match cs with
    | '-' :: r => (true, r)
    | r => (false, r)
  let (whole, afterWhole) ← scanWhole unsigned
  let (fraction?, afterFraction) ← scanFraction afterWhole
  let (exponent?, rest) ← scanExponent afterFraction
  pure (.ofParts negative whole fraction? exponent?, rest)

end BindingSynthesis.Json
