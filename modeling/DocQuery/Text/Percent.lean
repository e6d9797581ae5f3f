/-!
# Percent-encoding

* `percentEncode s`: the UTF-8 bytes of `s`, where a letter, a digit and each of `_.-~` stands for
  itself and any other byte is `%` with two upper-case hexadecimal digits.
* `percentDecode? s`: reads such a text back; it refuses a `%` without two hexadecimal digits and
  bytes that are not UTF-8.
-/

namespace DocQuery.Text

/-- The bytes that stand for themselves. -/
def isUnreserved (b : UInt8) : Bool :=
  let n := b.toNat
  (0x41 ≤ n && n ≤ 0x5A) || (0x61 ≤ n && n ≤ 0x7A) || (0x30 ≤ n && n ≤ 0x39) ||
    n == 0x5F || n == 0x2E || n == 0x2D || n == 0x7E

/-- The upper-case hexadecimal digit of a number below sixteen. -/
def hexDigit (n : Nat) : Char := Char.ofNat (if n < 10 then 0x30 + n else 0x37 + n)

/-- The characters that stand for one byte. -/
def percentByte (b : UInt8) : List Char :=
  if isUnreserved b then [Char.ofNat b.toNat]
  else ['%', hexDigit (b.toNat / 16), hexDigit (b.toNat % 16)]

/-- The percent-encoded text. -/
def percentEncode (s : String) : String := String.ofList (s.toUTF8.data.toList.flatMap percentByte)

/-- The value of an upper-case hexadecimal digit. -/
def hexValue? (c : Char) : Option Nat :=
  if '0' ≤ c ∧ c ≤ '9' then some (c.toNat - 0x30)
  else if 'A' ≤ c ∧ c ≤ 'F' then some (c.toNat - 0x37)
  else none

/-- The bytes that a percent-encoded text stands for. -/
def percentBytes? : List Char → Option (List UInt8)
  | [] => some []
  | '%' :: h :: l :: cs => do
    let hi ← hexValue? h
    let lo ← hexValue? l
    let rest ← percentBytes? cs
    return UInt8.ofNat (16 * hi + lo) :: rest
  | c :: cs =>
    if c.toNat < 256 ∧ isUnreserved (UInt8.ofNat c.toNat) then
      (percentBytes? cs).map (UInt8.ofNat c.toNat :: ·)
    else none

/-- The text that a percent-encoded text stands for. -/
def percentDecode? (s : String) : Option String := do
  let bytes ← percentBytes? s.toList
  String.fromUTF8? ⟨bytes.toArray⟩

end DocQuery.Text
