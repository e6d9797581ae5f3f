import DocQuery.Number.Shortest
import DocQuery.Text.Quoted

/-!
# Values

`Value` is the data that a constant carries, or that stands where an expression was expected.

* `Value.same a b`: equality in which a number equals a number of the same magnitude, whichever way
  it is held, a truth value counts as zero or one, and the fields of an object have no order.  No
  `nan` equals anything.
* `Value.display v`: the value as text; inside lists and objects, texts are quoted.
* `Value.kindName v`: the word for the kind of value in messages.
-/

namespace DocQuery

/-- A null, a truth value, a whole number, a floating-point number, a text, a list or an object with
named fields. -/
inductive Value where
  | null
  | bool (b : Bool)
  | int (n : Int)
  | float (x : Binary64)
  | text (s : String)
  | list (items : List Value)
  | object (fields : List (String × Value))
  deriving Repr, Inhabited

namespace Value

/-- The word for the kind of value. -/
def kindName : Value → String
  | .null => "NoneType"
  | .bool _ => "bool"
  | .int _ => "int"
  | .float _ => "float"
  | .text _ => "str"
  | .list _ => "list"
  | .object _ => "dict"

def isNull : Value → Bool
  | .null => true
  | _ => false

/-- Lists and objects are collections. -/
def isCollection : Value → Bool
  | .list _ | .object _ => true
  | _ => false

/-- Does the value count as true?  Null, zero and whatever is empty do not. -/
def isTrue : Value → Bool
  | .null => false
  | .bool b => b
  | .int n => n != 0
  | .float (.finite _ m _) => m != 0
  | .float _ => true
  | .text s => s != ""
  | .list items => !items.isEmpty
  | .object fields => !fields.isEmpty

/-- Is the value above zero?  Truth values count as zero and one; what is no number cannot be
compared. -/
def isPositive? : Value → Option Bool
  | .bool b => some b
  | .int n => some (decide (0 < n))
  | .float x => some x.isPositive
  | _ => none

/-! ## Equality -/

/-- The number that a value is, as a rational. -/
def toRat? : Value → Option Rat
  | .bool b => some (if b then 1 else 0)
  | .int n => some n
  | .float x => x.toRat?
  | _ => none

mutual

/-- Are the values equal? -/
def same : Value → Value → Bool
  | .null, .null => true
  | .text a, .text b => a == b
  | .list as, .list bs => sameList as bs
  | .object as, .object bs => as.length == bs.length && sameFields as bs
  | .float (.infinite a), .float (.infinite b) => a == b
  | a, b => match a.toRat?, b.toRat? with
    | some x, some y => x == y
    | _, _ => false

/-- Are the lists equal, place by place? -/
def sameList : List Value → List Value → Bool
  | [], [] => true
  | a :: as, b :: bs => a.same b && sameList as bs
  | _, _ => false

/-- Does every field on the left have an equal one on the right? -/
def sameFields : List (String × Value) → List (String × Value) → Bool
  | [], _ => true
  | (k, a) :: as, bs =>
    (match bs.lookup k with
      | some b => a.same b
      | none => false) && sameFields as bs

end

/-! ## Text -/

mutual

/-- The value as it stands inside a list or an object. -/
def shown : Value → String
  | .null => "None"
  | .bool b => if b then "True" else "False"
  | .int n => toString n
  | .float x => x.text
  | .text s => Text.quoted s
  | .list items => "[" ++ ", ".intercalate (shownItems items) ++ "]"
  | .object fields => "\x7b" ++ ", ".intercalate (shownFields fields) ++ "\x7d"

/-- The items of a list as text. -/
def shownItems : List Value → List String
  | [] => []
  | v :: vs => v.shown :: shownItems vs

/-- The fields of an object as text. -/
def shownFields : List (String × Value) → List String
  | [] => []
  | (k, v) :: fields => (Text.quoted k ++ ": " ++ v.shown) :: shownFields fields

end

/-- The value as text of its own. -/
def display : Value → String
  | .text s => s
  | v => v.shown

end Value

end DocQuery
