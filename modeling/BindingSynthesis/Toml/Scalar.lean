import BindingSynthesis.Json.Numeral
import BindingSynthesis.Toml.Table

/-!
# BindingSynthesis.Toml.Scalar

Numbers, dates and the space around values in TOML.

1. A decimal number has no leading zero; an underscore may stand between two of
   its digits.  Hexadecimal, octal and binary numbers have no sign.
2. Integers have 64 bits.  A float that is too large is refused, unless it is
   negative.
3. A date is a day of the calendar, a time of the day, or both with a blank or a
   `T` between them and perhaps an offset.
-/

namespace BindingSynthesis.Toml

/-! ## Space -/

/-- A blank inside of a line. -/
def isSpace (c : Char) : Bool := c == ' ' || c == '\t'

/-- The text without the blanks in front. -/
def skipSpace (cs : List Char) : List Char := cs.dropWhile isSpace

/-- A character that may stand in a comment or in a string between quotes. -/
def isPrintable (c : Char) : Bool := c == '\t' || (0x20 ≤ c.toNat && c.toNat != 0x7F)

/-- The text without the comment in front, if there is one. -/
def skipComment : List Char → List Char
  | '#' :: cs => cs.dropWhile isPrintable
  | cs => cs

/-- The text behind the end of a line. -/
def newline? : List Char → Option (List Char)
  | '\n' :: cs => some cs
  | '\r' :: '\n' :: cs => some cs
  | _ => none

/-- The text behind the rest of a line that holds nothing but a comment. -/
def lineEnd? (cs : List Char) : Option (List Char) :=
  match skipComment (skipSpace cs) with
  | [] => some []
  | cs => newline? cs

/-- The text behind blanks, comments and ends of lines; read with so much fuel. -/
def skipLines : Nat → List Char → List Char
  | 0, cs => cs
  | fuel + 1, cs =>
    let cs := skipSpace cs
    match newline? (skipComment cs) with
    | some rest => skipLines fuel rest
    | none => cs

/-! ## Numbers -/

/-- The digits behind a digit, with single underscores between them. -/
def moreDigits? (isDigit : Char → Bool) : List Char → Option (List Char × List Char)
  | ['_'] => none
  | '_' :: d :: cs =>
    if isDigit d then (moreDigits? isDigit cs).map fun (ds, rest) => (d :: ds, rest) else none
  | d :: cs =>
    if isDigit d then (moreDigits? isDigit cs).map fun (ds, rest) => (d :: ds, rest)
    else some ([], d :: cs)
  | [] => some ([], [])

/-- Digits with single underscores between them, at least one. -/
def digitGroup? (isDigit : Char → Bool) : List Char → Option (List Char × List Char)
  | d :: cs =>
    if isDigit d then (moreDigits? isDigit cs).map fun (ds, rest) => (d :: ds, rest) else none
  | [] => none

/-- The value of a digit of a hexadecimal number. -/
def hexDigit? (c : Char) : Option Nat :=
  if c.isDigit then some (c.toNat - 48)
  else if 'a' ≤ c ∧ c ≤ 'f' then some (c.toNat - 87)
  else if 'A' ≤ c ∧ c ≤ 'F' then some (c.toNat - 55)
  else none

/-- The number that digits write in a base. -/
def ofDigits (base : Nat) (ds : List Char) : Nat :=
  ds.foldl (fun n d => n * base + (hexDigit? d).getD 0) 0

/-- An integer, if 64 bits hold it. -/
def integer? (n : Int) : Option Value :=
  if Int64.minValue.toInt ≤ n ∧ n ≤ Int64.maxValue.toInt then some (.integer n) else none

/-- A number in a base other than ten, behind its mark. -/
def basedInteger? (base : Nat) (cs : List Char) : Option (Value × List Char) := do
  let (ds, rest) ← digitGroup? (fun c => (hexDigit? c).any (· < base)) cs
  pure (← integer? (ofDigits base ds), rest)

/-- A sign: whether it is a minus, and the rest. -/
def sign : List Char → Bool × List Char
  | '+' :: cs => (false, cs)
  | '-' :: cs => (true, cs)
  | cs => (false, cs)

/-- The digits before the point: a lone zero, or none in front. -/
def wholeDigits? : List Char → Option (List Char × List Char)
  | '0' :: cs => some (['0'], cs)
  | cs => digitGroup? Char.isDigit cs

/-- The double nearest to `whole.fraction × 10 ^ exponent` is infinite. -/
def isInfinite (whole fraction : List Char) (exponent : Int) : Bool :=
  let significand := ofDigits 10 (whole ++ fraction)
  let power : Int := exponent - fraction.length
  let bound := Nat.pow 2 1024 - Nat.pow 2 970
  if significand = 0 ∨ whole.length + exponent < 300 then false
  else if 400 < power then true
  else if 0 ≤ power then bound ≤ significand * Nat.pow 10 power.toNat
  else bound * Nat.pow 10 (-power).toNat ≤ significand

/-- The fraction behind a point, if there is a point. -/
def fraction? : List Char → Option (Option (List Char) × List Char)
  | '.' :: cs => (digitGroup? Char.isDigit cs).map fun (ds, rest) => (some ds, rest)
  | cs => some (none, cs)

/-- The exponent behind an `e`, if there is one. -/
def exponent? : List Char → Option (Option Int × List Char)
  | c :: cs =>
    if c = 'e' ∨ c = 'E' then do
      let (negative, unsigned) := sign cs
      let (ds, rest) ← digitGroup? Char.isDigit unsigned
      let n : Int := ofDigits 10 ds
      pure (some (if negative then -n else n), rest)
    else some (none, c :: cs)
  | [] => some (none, [])

/-- A decimal number behind its sign. -/
def decimal? (negative : Bool) (cs : List Char) : Option (Value × List Char) := do
  let (whole, cs) ← wholeDigits? cs
  let (fraction, cs) ← fraction? cs
  let (exponent, cs) ← exponent? cs
  if fraction.isNone ∧ exponent.isNone then
    let n : Int := ofDigits 10 whole
    pure (← integer? (if negative then -n else n), cs)
  else if !negative ∧ isInfinite whole (fraction.getD []) (exponent.getD 0) then none
  else pure (.float, cs)

/-- A number. -/
def number? : List Char → Option (Value × List Char)
  | '0' :: 'x' :: cs => basedInteger? 16 cs
  | '0' :: 'o' :: cs => basedInteger? 8 cs
  | '0' :: 'b' :: cs => basedInteger? 2 cs
  | cs => match sign cs with
    | (_, 'i' :: 'n' :: 'f' :: rest) => some (.float, rest)
    | (_, 'n' :: 'a' :: 'n' :: rest) => some (.float, rest)
    | (negative, unsigned) => decimal? negative unsigned

/-! ## Dates -/

/-- A number of exactly so many digits, within bounds. -/
def fixed? (digits low high : Nat) (cs : List Char) : Option (Nat × List Char) :=
  let ds := cs.take digits
  let n := ofDigits 10 ds
  if ds.length = digits ∧ ds.all Char.isDigit ∧ low ≤ n ∧ n ≤ high then some (n, cs.drop digits)
  else none

/-- The text behind a character that must stand in front. -/
def expect? (c : Char) : List Char → Option (List Char)
  | d :: cs => if d = c then some cs else none
  | [] => none

/-- The number of days in a month. -/
def daysIn (year month : Nat) : Nat :=
  if month = 2 then
    if year % 4 = 0 ∧ (year % 100 ≠ 0 ∨ year % 400 = 0) then 29 else 28
  else if month ∈ [4, 6, 9, 11] then 30
  else 31

/-- The text behind a day of the calendar. -/
def day? (cs : List Char) : Option (List Char) := do
  let (year, cs) ← fixed? 4 0 9999 cs
  let (month, cs) ← fixed? 2 1 12 (← expect? '-' cs)
  let (_, cs) ← fixed? 2 1 (daysIn year month) (← expect? '-' cs)
  pure cs

/-- The text behind a fraction of a second, if there is one. -/
def secondFraction : List Char → List Char
  | '.' :: d :: cs => if d.isDigit then cs.dropWhile Char.isDigit else '.' :: d :: cs
  | cs => cs

/-- The text behind a time of the day. -/
def time? (cs : List Char) : Option (List Char) := do
  let (_, cs) ← fixed? 2 0 23 cs
  let (_, cs) ← fixed? 2 0 59 (← expect? ':' cs)
  let (_, cs) ← fixed? 2 0 60 (← expect? ':' cs)
  pure (secondFraction cs)

/-- The text behind an offset, if there is one. -/
def offset? : List Char → Option (List Char)
  | 'Z' :: cs | 'z' :: cs => some cs
  | c :: cs =>
    if c = '+' ∨ c = '-' then do
      let (_, cs) ← fixed? 2 0 23 cs
      let (_, cs) ← fixed? 2 0 59 (← expect? ':' cs)
      pure cs
    else some (c :: cs)
  | [] => some []

/-- The text looks like a time from its third character on. -/
def looksLikeTime (cs : List Char) : Bool :=
  (cs.take 2).all Char.isDigit && cs[2]? == some ':'

/-- The text looks like a day from its fifth character on. -/
def looksLikeDay (cs : List Char) : Bool :=
  (cs.take 4).all Char.isDigit && cs[4]? == some '-'

/-- The text behind a date that starts with a day. -/
def dayAndTime? (cs : List Char) : Option (List Char) := do
  let cs ← day? cs
  match cs with
  | c :: rest =>
    if c ∈ ['T', 't', ' '] ∧ looksLikeTime rest then do offset? (← time? rest)
    else pure cs
  | [] => pure []

/-- A number or a date. -/
def numeric? (cs : List Char) : Option (Value × List Char) :=
  if looksLikeDay cs then (dayAndTime? cs).map fun rest => (.date, rest)
  else if looksLikeTime cs then (time? cs).map fun rest => (.date, rest)
  else number? cs

end BindingSynthesis.Toml
