import DocQuery.Expr.Basic
import DocQuery.Text.Quoted

/-!
# Building expressions

Constants from values, and the usual operators, accesses, calls and quantifiers.
`Expr.joinedBy op es` joins expressions with one operator, grouped to the left; it needs at least
one.
-/

namespace DocQuery

namespace Constant

def null : Constant := { text := "null", value := .null }

/-- A text constant; quotes inside are doubled. -/
def string (s : String) : Constant :=
  { text := Text.quoteLiteral s, value := .text s, typeName := some "Edm.String" }

/-- A number constant.  Truth values count as whole numbers. -/
def number (v : Value) : Constant :=
  { text := v.display, value := v,
    typeName := some (match v with
      | .int _ | .bool _ => "Edm.Int32"
      | _ => "Edm.Double") }

def boolean (b : Bool) : Constant :=
  { text := if b then "true" else "false", value := .bool b, typeName := some "Edm.Boolean" }

/-- The member of an enumeration type, written as the type's name before the quoted member. -/
def enum (typeName member : String) : Constant :=
  { text := typeName ++ "'" ++ member ++ "'", value := .text member, typeName := some typeName,
    isEnum := true }

/-- The constant for a value. -/
def ofValue : Value → Constant
  | .null => null
  | .bool b => boolean b
  | .text s => string s
  | v => number v

end Constant

/-- Why an expression or a sort chain cannot be built. -/
inductive BuildError where
  | noOperand (op : BinaryOp)
  | emptyChain
  deriving DecidableEq, Repr

def BuildError.message : BuildError → String
  | .noOperand op => "'" ++ op.name ++ "' needs at least one operand"
  | .emptyChain => "An order-by chain needs at least one item"

namespace Expr

/-- The name of the queried document. -/
def itName : String := "$it"

/-- The queried document. -/
def it : Expr := .rangeVar itName true

/-- A range variable. -/
def var (name : String) : Expr := .rangeVar name true

/-- A property of `source`, or of the queried document if the source is missing. -/
def prop (name : String) (source : Expr := .missing) : Expr :=
  .access (.declared false) name (if source.isMissing then it else source)

/-- The constant for a value. -/
def lit (v : Value) : Expr := .constant (.ofValue v)

/-- All of the expressions joined by `op`, grouped to the left. -/
def joinedBy (op : BinaryOp) : List Expr → Except BuildError Expr
  | [] => .error (.noOperand op)
  | e :: es => .ok (es.foldl (.binary op) e)

/-- All of the expressions joined by `and`. -/
def conj (es : List Expr) : Except BuildError Expr := joinedBy .and es

/-- All of the expressions joined by `or`. -/
def disj (es : List Expr) : Except BuildError Expr := joinedBy .or es

def negation (e : Expr) : Expr := .unary .not e

/-- A function call, on a receiver if `source` is not missing. -/
def func (name : String) (args : List Expr) (source : Expr := .missing) : Expr :=
  .call name args source .singleValue

/-- `any` over `source`.  Without a body it asks whether there is a member at all. -/
def anyOf (source : Expr) (boundVar : Option String) (body : Expr) : Expr :=
  if body.isMissing then .quantifier .any source (.constant (.boolean true)) none
  else .quantifier .any source body boundVar

/-- `all` over `source`. -/
def allOf (source : Expr) (boundVar : Option String) (body : Expr) : Expr :=
  .quantifier .all source body boundVar

end Expr

end DocQuery
