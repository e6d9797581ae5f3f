import DocQuery.Number.Digits

/-!
# Numerals

* `readNumeral cs` reads a plain numeral: an optional minus, and then a zero alone or digits that do
  not start with one.  It may not have more than `maxDigits` digits.
* `plainNumeral? cs` turns the looser ways of writing a whole number into a plain numeral: blanks
  around it, a plus, leading zeros, single underscores and a fraction of zeros.
* `readInteger s` reads a whole number, plain or loose.
-/

namespace DocQuery.Number

/-- Why a text is no whole number: it is not written like one, or it is too long. -/
inductive NumeralFault where
  | malformed
  | tooLong
  deriving DecidableEq, Repr

def isDigit (c : Char) : Bool := (asciiDigit? c).isSome

/-- The number that a run of digits spells. -/
def ofDigitChars (cs : List Char) : Nat := ofDigits (cs.filterMap asciiDigit?)

/-- Read digits that do not start with a zero. -/
def readDigits (cs : List Char) : Except NumeralFault Nat :=
  let run := cs.takeWhile isDigit
  if run.isEmpty then .error .malformed
  else if maxDigits < run.length then .error .tooLong
  else if run.length = cs.length then .ok (ofDigitChars run)
  else .error .malformed

/-- Read a numeral without its sign. -/
def readMagnitude : List Char → Except NumeralFault Nat
  | ['0'] => .ok 0
  | '0' :: _ => .error .malformed
  | cs => readDigits cs

/-- Read a plain numeral. -/
def readNumeral : List Char → Except NumeralFault Int
  | '-' :: cs => (readMagnitude cs).map fun n => -(n : Int)
  | cs => (readMagnitude cs).map fun n => (n : Int)

/-! ## Loose writing -/

/-- Drop a plus.  A minus may not follow it. -/
def dropPlus? : List Char → Option (List Char)
  | '+' :: '-' :: _ => none
  | '+' :: cs => some cs
  | cs => some cs

/-- What is left after leading zeros and underscores, the last of which is `last`: it stays before a
point and at the end.  A minus may follow them. -/
def afterZeros? (last : Char) : List Char → Option (List Char)
  | [] => some [last]
  | c :: cs =>
    if c = '0' ∨ c = '_' then afterZeros? c cs
    else if isDigit c || c == '-' then some (c :: cs)
    else if c = '.' then some (last :: c :: cs)
    else none

/-- Drop leading zeros, with underscores among them.  A digit must come first. -/
def dropZeros? : List Char → Option (List Char)
  | [] => none
  | c :: cs => if c = '0' then afterZeros? c cs else if isDigit c then some (c :: cs) else none

/-- Drop leading zeros, also after a minus. -/
def dropSignedZeros? : List Char → Option (List Char)
  | '-' :: cs => (dropZeros? cs).map ('-' :: ·)
  | cs => dropZeros? cs

/-- Drop a fraction that consists of zeros; there must be one. -/
def dropZeroFraction (cs : List Char) : List Char :=
  let part := (cs.dropWhile (· != '.')).drop 1
  if !part.isEmpty && part.all (· == '0') then cs.takeWhile (· != '.') else cs

/-- Do two underscores meet? -/
def hasDoubleUnderscore : List Char → Bool
  | '_' :: '_' :: _ => true
  | _ :: cs => hasDoubleUnderscore cs
  | [] => false

/-- Drop the underscores, which may neither come first or last nor meet. -/
def dropUnderscores? (cs : List Char) : Option (List Char) :=
  if cs.head? == some '_' || cs.getLast? == some '_' || hasDoubleUnderscore cs then none
  else some (cs.filter (· != '_'))

/-- The plain numeral for a loosely written whole number. -/
def plainNumeral? (cs : List Char) : Option (List Char) := do
  let cs ← dropPlus? (trimNumber cs)
  let cs ← dropSignedZeros? cs
  dropUnderscores? (dropZeroFraction cs)

/-- Read a whole number.  Only a plain numeral is said to be too long. -/
def readInteger (s : String) : Except NumeralFault Int :=
  match readNumeral s.toList with
  | .ok n => .ok n
  | .error .tooLong => .error .tooLong
  | .error .malformed => match plainNumeral? s.toList with
    | none => .error .malformed
    | some cs => match readNumeral cs with
      | .ok n => .ok n
      | .error _ => .error .malformed

end DocQuery.Number
