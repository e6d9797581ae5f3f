import DocQuery.Number.Numeral
import DocQuery.Value

/-!
# Lenient reading of options

Values of options may come in more than one form.

* `lenientInt v`: a whole number, given as such, as a truth value, as a floating-point number
  without fraction or as text.
* `lenientBool v`: a truth value, given as such, as one of the usual words in any case, or as zero
  or one.
* `requireText v`: a text, given as such.

`InputFault` says what is wrong with a value, and `InputFault.message` is the wording.
-/

namespace DocQuery

/-- What is wrong with the value of an option. -/
inductive InputFault where
  | notText
  | notInteger
  | unreadableInteger
  | oversizedInteger
  | fractional
  | notFinite
  | notPositive
  | notBoolean
  | unreadableBoolean
  deriving DecidableEq, Repr

namespace InputFault

/-- The wording, with the code of the fault in brackets. -/
def message : InputFault → String
  | .notText => "Input should be a valid string [string_type]"
  | .notInteger => "Input should be a valid integer [int_type]"
  | .unreadableInteger =>
    "Input should be a valid integer, unable to parse string as an integer [int_parsing]"
  | .oversizedInteger =>
    "Unable to parse input string as an integer, exceeded maximum size [int_parsing_size]"
  | .fractional =>
    "Input should be a valid integer, got a number with a fractional part [int_from_float]"
  | .notFinite => "Input should be a finite number [finite_number]"
  | .notPositive => "Input should be greater than 0 [greater_than]"
  | .notBoolean => "Input should be a valid boolean [bool_type]"
  | .unreadableBoolean =>
    "Input should be a valid boolean, unable to interpret input [bool_parsing]"

end InputFault

/-- A fault in the option of the given name. -/
structure FieldFault where
  field : String
  fault : InputFault
  deriving DecidableEq, Repr

/-- The faults of several options in one line. -/
def faultsMessage (faults : List FieldFault) : String :=
  "; ".intercalate (faults.map fun x => x.field ++ ": " ++ x.fault.message)

/-! ## Integers -/

/-- The first number beyond the signed 64-bit words. -/
def wordBound : Int := 9223372036854775808

/-- Is the number a signed 64-bit word? -/
def fitsWord (n : Int) : Bool := -wordBound ≤ n && n < wordBound

/-- The whole number that a finite floating-point number is; it must lie strictly between the ends
of the words. -/
def wholeWord (x : Binary64) : Except InputFault Int :=
  match x.toInt? with
  | none => .error .fractional
  | some n => if -wordBound < n && n < wordBound then .ok n else .error .oversizedInteger

/-- A whole number in any of its forms. -/
def lenientInt : Value → Except InputFault Int
  | .int n => .ok n
  | .bool b => .ok (if b then 1 else 0)
  | .float x => if x.isFinite then wholeWord x else .error .notFinite
  | .text s => match Number.readInteger s with
    | .ok n => .ok n
    | .error .tooLong => .error .oversizedInteger
    | .error .malformed => .error .unreadableInteger
  | _ => .error .notInteger

/-! ## Truth values and texts -/

/-- A truth value as text. -/
def readBool? (s : String) : Option Bool :=
  let word := String.ofList (s.toList.map Char.toLower)
  if ["1", "true", "t", "yes", "y", "on"].contains word then some true
  else if ["0", "false", "f", "no", "n", "off"].contains word then some false
  else none

/-- One is true and zero is false. -/
def boolOfInt (n : Int) : Except InputFault Bool :=
  if n = 1 then .ok true else if n = 0 then .ok false else .error .unreadableBoolean

/-- A truth value in any of its forms. -/
def lenientBool : Value → Except InputFault Bool
  | .bool b => .ok b
  | .int n => if fitsWord n then boolOfInt n else .error .notBoolean
  | .float x => match wholeWord x with
    | .ok n => boolOfInt n
    | .error _ => .error .notBoolean
  | .text s => match readBool? s with
    | some b => .ok b
    | none => .error .unreadableBoolean
  | _ => .error .notBoolean

/-- A text. -/
def requireText : Value → Except InputFault String
  | .text s => .ok s
  | _ => .error .notText

end DocQuery
