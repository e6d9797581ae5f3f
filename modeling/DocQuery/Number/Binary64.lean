import DocQuery.Number.Digits

/-!
# Double-precision numbers

`Binary64` is a 64-bit floating-point number, given by sign, whole mantissa and power of two, so
that arithmetic on it is exact.

* `ofRatio neg num den`: the number nearest to `±num / den`; of two that are equally near, the one
  with an even mantissa.
* `ofDecimal neg m e`: the number nearest to `±m * 10 ^ e`.
* `toRat?`: the rational that a finite number is.
* `read? s`: the number that a text spells, with sign, point and exponent if need be, or as one of
  the words `inf`, `infinity` and `nan` in any case.  Blanks may stand around it, and single
  underscores between digits.
-/

namespace DocQuery

/-- A 64-bit floating-point number.  `finite neg m q` is `±m * 2 ^ q`. -/
inductive Binary64 where
  | nan
  | infinite (negative : Bool)
  | finite (negative : Bool) (mantissa : Nat) (exponent : Int)
  deriving DecidableEq, Repr

namespace Binary64

/-- The least mantissa of a number that is not among the nearest to zero. -/
def minNormal : Nat := Nat.pow 2 52

/-- The exponent of the numbers nearest to zero. -/
def minExponent : Int := -1074

/-- The exponent of the largest finite numbers. -/
def maxExponent : Int := 971

def zero (negative : Bool) : Binary64 := .finite negative 0 minExponent

/-- The quotient rounded to the nearest whole number, a half to the even one. -/
def roundDiv (num den : Nat) : Nat :=
  let q := num / den
  let r := num % den
  if 2 * r < den then q
  else if den < 2 * r then q + 1
  else q + q % 2

/-- `num / den * 2 ^ e` as a pair of numerator and denominator. -/
def scaleTwo (num den : Nat) (e : Int) : Nat × Nat :=
  (num * Nat.pow 2 e.toNat, den * Nat.pow 2 (-e).toNat)

/-- The greatest `e` with `2 ^ e ≤ num / den`, for `num` and `den` not zero. -/
def floorLog (num den : Nat) : Int :=
  let e : Int := (num.log2 : Int) - (den.log2 : Int)
  let (n, d) := scaleTwo num den (-e)
  if d ≤ n then e else e - 1

/-- The number nearest to `±num / den`, for `den` not zero. -/
def ofRatio (negative : Bool) (num den : Nat) : Binary64 :=
  if num = 0 then zero negative
  else
    let e := floorLog num den - 52
    let q := if e < minExponent then minExponent else e
    let (n, d) := scaleTwo num den (-q)
    let m := roundDiv n d
    let (m, q) := if m = 2 * minNormal then (minNormal, q + 1) else (m, q)
    if maxExponent < q then .infinite negative else .finite negative m q

/-- The number of decimal digits of `n`; zero has none. -/
def digitCount (n : Nat) : Nat :=
  if n = 0 then 0 else digitCount (n / 10) + 1

/-- The number nearest to `±m * 10 ^ e`.  Beyond the first two cases the powers of ten stay
small. -/
def ofDecimal (negative : Bool) (m : Nat) (e : Int) : Binary64 :=
  let size := e + digitCount m
  if m = 0 ∨ size < -400 then zero negative
  else if 400 < size then .infinite negative
  else ofRatio negative (m * Nat.pow 10 e.toNat) (Nat.pow 10 (-e).toNat)

/-- The rational that a finite number is. -/
def toRat? : Binary64 → Option Rat
  | .finite negative m q =>
    let (n, d) := scaleTwo m 1 q
    let r := mkRat n d
    some (if negative then -r else r)
  | _ => none

/-- The whole number that a finite number is, if it is one. -/
def toInt? (x : Binary64) : Option Int :=
  match x.toRat? with
  | some r => if r.den = 1 then some r.num else none
  | none => none

/-- Is the number above zero? -/
def isPositive : Binary64 → Bool
  | .nan => false
  | .infinite negative => !negative
  | .finite negative m _ => !negative && m != 0

def isFinite : Binary64 → Bool
  | .finite .. => true
  | _ => false

/-! ## Reading -/

open Number

/-- The digits after a point, if there is one, and the rest. -/
def readFraction : List Char → List Nat × List Char
  | '.' :: cs => digitRun decimalDigit? cs
  | cs => ([], cs)

/-- The exponent that ends a number; zero if there is none. -/
def readExponent? : List Char → Option Int
  | [] => some 0
  | c :: cs =>
    if c = 'e' ∨ c = 'E' then
      let (negative, cs) := takeSign cs
      match digitRun decimalDigit? cs with
      | ([], _) => none
      | (ds, []) => some (if negative then -(ofDigits ds : Int) else ofDigits ds)
      | _ => none
    else none

/-- An unsigned decimal number. -/
def readDecimal? (negative : Bool) (cs : List Char) : Option Binary64 :=
  let (whole, cs) := digitRun decimalDigit? cs
  let (part, cs) := readFraction cs
  if whole.isEmpty && part.isEmpty then none
  else (readExponent? cs).map fun e =>
    ofDecimal negative (ofDigits (whole ++ part)) (e - part.length)

/-- Read a number. -/
def read? (s : String) : Option Binary64 :=
  let (negative, cs) := takeSign (trimNumber s.toList)
  let word := String.ofList (cs.map Char.toLower)
  if word = "inf" ∨ word = "infinity" then some (.infinite negative)
  else if word = "nan" then some .nan
  else readDecimal? negative cs

end Binary64

end DocQuery
