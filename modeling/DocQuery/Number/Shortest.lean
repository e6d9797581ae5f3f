import DocQuery.Number.Binary64

/-!
# Shortest decimal text

`Binary64.text x` writes `x` with the fewest digits that read back as `x`, and of those the digits
nearest to `x`.  Magnitudes from `10 ^ -4` up to `10 ^ 16` are positional with at least one digit
after the point; all others have an exponent with its sign and at least two digits.
-/

namespace DocQuery
namespace Binary64

/-- The decimals that read back as `m * 2 ^ q` lie between `low / den` and `high / den`, with
`value / den` the number itself; the ends count when `closed` holds. -/
structure Interval where
  value : Nat
  low : Nat
  high : Nat
  den : Nat
  closed : Bool

/-- The interval of `m * 2 ^ q`.  Below a power of two the gap to the next number is half as
wide. -/
def interval (m : Nat) (q : Int) : Interval :=
  let below := if m = minNormal ∧ minExponent < q then 1 else 2
  let (unit, den) := scaleTwo 1 4 q
  { value := 4 * m * unit, low := (4 * m - below) * unit, high := (4 * m + 2) * unit, den := den,
    closed := m % 2 == 0 }

/-- Does the decimal `num / den` lie in the interval? -/
def Interval.holds (i : Interval) (num den : Nat) : Bool :=
  let lo := i.low * den
  let hi := i.high * den
  let x := num * i.den
  if i.closed then lo ≤ x && x ≤ hi else lo < x && x < hi

/-- The `k` with `10 ^ (k - 1) ≤ num / den < 10 ^ k`, for `num` and `den` not zero. -/
def magnitude (num den : Nat) : Int :=
  if den ≤ num then digitCount (num / den) else 1 - (digitCount ((den - 1) / num) : Int)

/-- `d * 10 ^ e` as a pair of numerator and denominator. -/
def decimalRatio (d : Nat) (e : Int) : Nat × Nat := (d * Nat.pow 10 e.toNat, Nat.pow 10 (-e).toNat)

/-- The decimal of the grid `10 ^ e` that lies in the interval, the nearer of two. -/
def Interval.onGrid? (i : Interval) (e : Int) : Option Nat :=
  let (unit, den) := decimalRatio 1 e
  let num := i.value * den
  let d := num / (i.den * unit)
  let r := num % (i.den * unit)
  let holds (d : Nat) : Bool := let (n, m) := decimalRatio d e; i.holds n m
  match holds d, holds (d + 1) with
  | true, true =>
    some (if 2 * r < i.den * unit ∨ (2 * r = i.den * unit ∧ d % 2 = 0) then d else d + 1)
  | true, false => some d
  | false, true => some (d + 1)
  | false, false => none

/-- The decimal `d * 10 ^ e` with the fewest digits, from `count` digits on.  Seventeen digits
always suffice. -/
def Interval.shortest (i : Interval) (k : Int) (count : Nat) : Nat → Nat × Int
  | 0 => ((i.onGrid? (k - count)).getD 0, k - count)
  | fuel + 1 => match i.onGrid? (k - count) with
    | some d => (d, k - count)
    | none => i.shortest k (count + 1) fuel

/-- Drop the trailing zeros of a list of digits. -/
def dropZeros (ds : List Char) : List Char := (ds.reverse.dropWhile (· == '0')).reverse

/-- The digits of `m * 2 ^ q`, without trailing zeros, and the place of the point:
`0.d₁d₂… * 10 ^ point`. -/
def digits (m : Nat) (q : Int) : List Char × Int :=
  let i := interval m q
  let (d, e) := i.shortest (magnitude i.value i.den) 1 17
  let ds := Nat.toDigits 10 d
  (dropZeros ds, e + ds.length)

/-- Digits around a point, with at least one on each side. -/
def positional (ds : List Char) (point : Int) : List Char :=
  if point ≤ 0 then '0' :: '.' :: (List.replicate (-point).toNat '0' ++ ds)
  else
    let p := point.toNat
    let whole := ds.take p ++ List.replicate (p - ds.length) '0'
    let part := ds.drop p
    whole ++ '.' :: (if part.isEmpty then ['0'] else part)

/-- One digit before the point and an exponent of at least two digits. -/
def scientific (ds : List Char) (point : Int) : List Char :=
  let e := point - 1
  let es := Nat.toDigits 10 e.natAbs
  ds.take 1 ++ (if ds.length ≤ 1 then [] else '.' :: ds.drop 1) ++
    'e' :: (if e < 0 then '-' else '+') :: (List.replicate (2 - es.length) '0' ++ es)

/-- The text of a magnitude. -/
def magnitudeText (m : Nat) (q : Int) : List Char :=
  if m = 0 then ['0', '.', '0']
  else
    let (ds, point) := digits m q
    if -4 < point ∧ point ≤ 16 then positional ds point else scientific ds point

/-- The shortest text that reads back as the number. -/
def text : Binary64 → String
  | .nan => "nan"
  | .infinite negative => if negative then "-inf" else "inf"
  | .finite negative m q =>
    String.ofList ((if negative then ['-'] else []) ++ magnitudeText m q)

end Binary64
end DocQuery
