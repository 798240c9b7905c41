import BindingSynthesis.Text.Utf8

/-!
# BindingSynthesis.Shell.Format

What `printf` and `echo` write.

1. A format is a list of pieces: octets, and conversions that take an argument.
2. A format is used again as long as arguments are left and it takes any;
   a conversion without an argument gets the empty text.
3. A backslash escapes a letter or an octal number of up to three digits; in an
   argument of `echo` a zero may stand in front of them.
4. A conversion to a number writes the number that its argument begins with,
   zero if there is none, and complains if the argument is no number.  One to a
   character writes the first octet, and a zero octet for no text.
-/

namespace BindingSynthesis.Shell

/-- A conversion of a format. -/
inductive Conversion where
  | text
  | number
  | character
  /-- Text whose backslashes escape as in an argument of `echo`. -/
  | escaped
  deriving DecidableEq, Repr

/-- A piece of a format. -/
inductive FormatPiece where
  | octets (os : List UInt8)
  | conversion (c : Conversion)
  deriving DecidableEq, Repr

/-- The octets of characters. -/
def octetsOf (cs : List Char) : List UInt8 := cs.flatMap String.utf8EncodeChar

/-- The value of an octal digit. -/
def octal? (c : Char) : Option Nat := if '0' ≤ c ∧ c ≤ '7' then some (c.toNat - 48) else none

/-- The octet that a letter behind a backslash stands for. -/
def escapeLetter? : Char → Option UInt8
  | 'a' => some 7
  | 'b' => some 8
  | 't' => some 9
  | 'n' => some 10
  | 'v' => some 11
  | 'f' => some 12
  | 'r' => some 13
  | '\\' => some 92
  | _ => none

/-- The octet of an octal number of up to so many digits, and what follows. -/
def octalNumber : Nat → Nat → List Char → UInt8 × List Char
  | digits + 1, n, c :: more => match octal? c with
    | some d => octalNumber digits (8 * n + d) more
    | none => (UInt8.ofNat n, c :: more)
  | _, n, cs => (UInt8.ofNat n, cs)

/-- The conversion of a letter. -/
def conversion? : Char → Option Conversion
  | 's' => some .text
  | 'd' | 'i' | 'u' => some .number
  | 'c' => some .character
  | 'b' => some .escaped
  | _ => none

/-- The pieces of a format, read with so much fuel; `none` if it has a
conversion of another kind. -/
def formatPieces : Nat → List Char → Option (List FormatPiece)
  | 0, _ => some []
  | _, [] => some []
  | fuel + 1, '%' :: '%' :: more => (formatPieces fuel more).map (.octets [37] :: ·)
  | fuel + 1, '%' :: more => match more with
    | [] => none
    | c :: more => do
      let conversion ← conversion? c
      let rest ← formatPieces fuel more
      pure (.conversion conversion :: rest)
  | fuel + 1, '\\' :: c :: more =>
    match escapeLetter? c, octal? c with
    | some o, _ => (formatPieces fuel more).map (.octets [o] :: ·)
    | none, some _ =>
      let (o, rest) := octalNumber 3 0 (c :: more)
      (formatPieces fuel rest).map (.octets [o] :: ·)
    | none, none => (formatPieces fuel more).map (.octets (octetsOf ['\\', c]) :: ·)
  | fuel + 1, c :: more => (formatPieces fuel more).map (.octets (octetsOf [c]) :: ·)

/-- What an argument of `echo` writes, and whether more may follow; read with so
much fuel. -/
def echoed : Nat → List Char → List UInt8 × Bool
  | 0, _ => ([], true)
  | _, [] => ([], true)
  | fuel + 1, '\\' :: c :: more =>
    let (os, rest) : List UInt8 × Option (List Char) := match escapeLetter? c with
      | some o => ([o], some more)
      | none =>
        if c = 'c' then ([], none)
        else if (octal? c).isSome then
          let (o, rest) := octalNumber 3 0 (if c = '0' then more else c :: more)
          ([o], some rest)
        else (octetsOf ['\\', c], some more)
    match rest with
    | none => (os, false)
    | some cs =>
      let (os', goesOn) := echoed fuel cs
      (os ++ os', goesOn)
  | fuel + 1, c :: more =>
    let (os, goesOn) := echoed fuel more
    (octetsOf [c] ++ os, goesOn)

/-- What `echo` writes for its arguments. -/
def echo : List String → List UInt8
  | [] => [10]
  | "-n" :: args => words args
  | args => words args ++ if (args.all fun a => (echoed a.length a.toList).2) then [10] else []
where
  /-- The arguments with blanks between them, up to one that ends the output. -/
  words : List String → List UInt8
    | [] => []
    | [a] => (echoed a.length a.toList).1
    | a :: more =>
      let (os, goesOn) := echoed a.length a.toList
      if goesOn then os ++ 32 :: words more else os

/-- The value of a digit in a base. -/
def digit? (base : Nat) (c : Char) : Option Nat :=
  let n? :=
    if c.isDigit then some (c.toNat - 48)
    else if 'a' ≤ c.toLower ∧ c.toLower ≤ 'f' then some (c.toLower.toNat - 87)
    else none
  n?.filter (· < base)

/-- The base of a number by its first characters, and its digits. -/
def basedDigits : List Char → Nat × List Char
  | '0' :: x :: d :: cs =>
    if x.toLower = 'x' ∧ (digit? 16 d).isSome then (16, d :: cs) else (8, '0' :: x :: d :: cs)
  | '0' :: cs => (8, '0' :: cs)
  | cs => (10, cs)

/-- The number that a text begins with, and whether it has digits and nothing
behind them. -/
def leadingNumber (cs : List Char) : Int × Bool × Bool :=
  let cs := cs.dropWhile fun c => c = ' ' ∨ ('\t' ≤ c ∧ c ≤ '\r')
  let (negative, cs) := match cs with
    | '-' :: cs => (true, cs)
    | '+' :: cs => (false, cs)
    | cs => (false, cs)
  let (base, cs) := basedDigits cs
  let ds := cs.takeWhile fun c => (digit? base c).isSome
  let n := ds.foldl (fun n c => n * base + (digit? base c).getD 0) 0
  (if negative then -(n : Int) else n, !ds.isEmpty, ds.length = cs.length)

/-- What `printf` writes, and what it complains about. -/
structure Printed where
  octets : List UInt8 := []
  complaints : List String := []
  deriving DecidableEq, Repr

/-- One text after the other. -/
def Printed.append (p q : Printed) : Printed :=
  ⟨p.octets ++ q.octets, p.complaints ++ q.complaints⟩

/-- What a conversion to a number writes for an argument. -/
def Printed.ofNumber (argument : String) : Printed :=
  let octets (n : Int) := octetsOf (toString n).toList
  match argument.toList with
  | [] => { octets := octets 0 }
  | '\'' :: cs | '"' :: cs => { octets := octets ((octetsOf cs).headD 0).toNat }
  | cs => match leadingNumber cs with
    | (n, true, true) => { octets := octets n }
    | (n, true, false) => ⟨octets n, [argument ++ ": not completely converted"]⟩
    | (_, false, _) => ⟨octets 0, [argument ++ ": expected numeric value"]⟩

/-- What a conversion writes for an argument, or for none. -/
def Conversion.write (c : Conversion) (argument? : Option String) : Printed :=
  let argument := argument?.getD ""
  match c with
  | .text => { octets := octetsOf argument.toList }
  | .character => { octets := [(octetsOf argument.toList).headD 0] }
  | .escaped => { octets := (echoed argument.length argument.toList).1 }
  | .number => .ofNumber argument

/-- What the pieces write once, and the arguments that are left. -/
def writePieces : List FormatPiece → List String → Printed × List String
  | [], args => ({}, args)
  | .octets os :: more, args =>
    let (p, rest) := writePieces more args
    (Printed.append { octets := os } p, rest)
  | .conversion c :: more, args =>
    let (p, rest) := writePieces more args.tail
    ((c.write args.head?).append p, rest)

/-- What the pieces write until no argument is left; the fuel is the number of
arguments. -/
def writeAgain (pieces : List FormatPiece) : Nat → List String → Printed
  | 0, _ => {}
  | fuel + 1, args =>
    let (p, rest) := writePieces pieces args
    if rest.isEmpty ∨ rest.length = args.length then p else p.append (writeAgain pieces fuel rest)

/-- What `printf` writes for a format and arguments. -/
def printf? (format : String) (args : List String) : Option Printed :=
  (formatPieces format.length format.toList).map fun pieces =>
    writeAgain pieces (args.length + 1) args

end BindingSynthesis.Shell
