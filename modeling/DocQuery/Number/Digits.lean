import DocQuery.Text.Blank

/-!
# Decimal digits

* `asciiDigit? c`, `decimalDigit? c`: the value of a digit, of `0` to `9` alone or of any script.
* `digitRun digit? cs`: the digits that `cs` starts with, where one underscore may stand between two
  digits, and what follows them.
* `ofDigits ds`: the number that the digits spell.
* `trimNumber cs`: what is left without the blanks around a number.
* `decimal s`: the whole number that a text spells; it may not have more than `maxDigits` digits.
-/

namespace DocQuery.Number

/-- The value of a digit `0` to `9`. -/
def asciiDigit? (c : Char) : Option Nat :=
  if '0' ≤ c ∧ c ≤ '9' then some (c.toNat - '0'.toNat) else none

/-- The code points of the digit zero, one per script; each begins a row of ten. -/
def zeroDigits : List Nat := [
  0x30, 0x660, 0x6F0, 0x7C0, 0x966, 0x9E6, 0xA66, 0xAE6, 0xB66, 0xBE6, 0xC66, 0xCE6, 0xD66, 0xDE6,
  0xE50, 0xED0, 0xF20, 0x1040, 0x1090, 0x17E0, 0x1810, 0x1946, 0x19D0, 0x1A80, 0x1A90,
  0x1B50, 0x1BB0, 0x1C40, 0x1C50, 0xA620, 0xA8D0, 0xA900, 0xA9D0, 0xA9F0, 0xAA50, 0xABF0, 0xFF10,
  0x104A0, 0x10D30, 0x11066, 0x110F0, 0x11136, 0x111D0, 0x112F0, 0x11450, 0x114D0, 0x11650, 0x116C0,
  0x11730, 0x118E0, 0x11950, 0x11C50, 0x11D50, 0x11DA0, 0x16A60, 0x16AC0, 0x16B50, 0x1D7CE, 0x1D7D8,
  0x1D7E2, 0x1D7EC, 0x1D7F6, 0x1E140, 0x1E2F0, 0x1E950, 0x1FBF0]

/-- The value of a decimal digit of any script. -/
def decimalDigit? (c : Char) : Option Nat :=
  (zeroDigits.find? fun z => z ≤ c.toNat && c.toNat < z + 10).map (c.toNat - ·)

/-- Does the list start with a digit? -/
def startsWithDigit (digit? : Char → Option Nat) : List Char → Bool
  | [] => false
  | c :: _ => (digit? c).isSome

/-- The leading digits, with single underscores between them, and the rest. -/
def digitRun (digit? : Char → Option Nat) : List Char → List Nat × List Char
  | [] => ([], [])
  | c :: cs => match digit? c with
    | none => ([], c :: cs)
    | some d =>
      let (ds, rest) := match cs with
        | '_' :: tail =>
          if startsWithDigit digit? tail then digitRun digit? tail else ([], '_' :: tail)
        | tail => digitRun digit? tail
      (d :: ds, rest)

/-- The number that the digits spell. -/
def ofDigits (ds : List Nat) : Nat := ds.foldl (fun n d => 10 * n + d) 0

/-- The sign that a text may start with: is it a minus, and what follows. -/
def takeSign : List Char → Bool × List Char
  | '-' :: cs => (true, cs)
  | '+' :: cs => (false, cs)
  | cs => (false, cs)

/-- Blanks around a number; the information separators are not among them. -/
def isNumberBlank (c : Char) : Bool := Text.isBlank c && !(28 ≤ c.toNat && c.toNat ≤ 31)

/-- Drop the blanks around a number. -/
def trimNumber (cs : List Char) : List Char :=
  ((cs.dropWhile isNumberBlank).reverse.dropWhile isNumberBlank).reverse

/-- The greatest number of digits of a whole number. -/
def maxDigits : Nat := 4300

/-- Why a text does not spell a whole number: it is not written like one, or it has too many
digits. -/
inductive DecimalFault where
  | malformed
  | tooManyDigits (count : Nat)
  deriving DecidableEq, Repr

/-- A whole number in decimal, with a sign if need be.  Blanks may stand around it.  Too many digits
are reported whatever follows them, a stray underscore apart. -/
def decimal (s : String) : Except DecimalFault Int :=
  let (negative, cs) := takeSign (trimNumber s.toList)
  match digitRun decimalDigit? cs with
  | ([], _) | (_, '_' :: _) => .error .malformed
  | (ds, rest) =>
    if maxDigits < ds.length then .error (.tooManyDigits ds.length)
    else if rest.isEmpty then .ok (if negative then -(ofDigits ds : Int) else ofDigits ds)
    else .error .malformed

end DocQuery.Number
