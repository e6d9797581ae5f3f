import DocQuery.Expr.Basic

/-!
# Symbols, precedence and parentheses

* `RenderError`: why an expression has no SQL text, with the wording `RenderError.message`.
* `BinaryOp.symbol?`: the SQL symbol of an operator; only comparisons and the connectives have one.
* `BinaryOp.rank?`: how tightly an operator binds, as a number that grows with it.
* `needsParens child parent`: does `child` bind looser than the operator `parent` around it?
-/

namespace DocQuery

/-- Why an expression has no SQL text. -/
inductive RenderError where
  /-- A value of the named kind stands where an expression was expected. -/
  | foreignNode (kindName : String)
  /-- The operator of that name has no SQL symbol. -/
  | noSymbol (operator : String)
  /-- The operator of that name has no precedence. -/
  | noPrecedence (operator : String)
  /-- An `any` without a range variable has a body that is no constant. -/
  | bodyNotConstant
  /-- A quantifier of the named kind has no range variable, or a blank one. -/
  | noRangeVariable (kind : String)
  deriving DecidableEq, Repr

def RenderError.message : RenderError → String
  | .foreignNode kindName => "Unknown query node type: " ++ kindName
  | .noSymbol operator => "Operator '" ++ operator ++ "' has no SQL symbol"
  | .noPrecedence operator => "Operator '" ++ operator ++ "' has no precedence"
  | .bodyNotConstant => "Parameterless any() must have a constant body"
  | .noRangeVariable kind => kind ++ "() over a lambda body needs a range variable"

namespace BinaryOp

/-- The SQL symbol of an operator. -/
def symbol? : BinaryOp → Option String
  | .eq => some "=" | .ne => some "!="
  | .gt => some ">" | .ge => some ">=" | .lt => some "<" | .le => some "<="
  | .and => some "AND" | .or => some "OR"
  | _ => none

/-- How tightly an operator binds. -/
def rank? : BinaryOp → Option Nat
  | .or => some 1
  | .and => some 2
  | .eq | .ne | .gt | .ge | .lt | .le => some 3
  | .add | .sub => some 4
  | .mul | .div | .mod => some 5
  | .has => some 6
  | .other _ => none

/-- The SQL symbol, which has to exist. -/
def symbol (op : BinaryOp) : Except RenderError String :=
  match op.symbol? with
  | some s => .ok s
  | none => .error (.noSymbol op.name)

/-- The precedence, which has to exist. -/
def precedence (op : BinaryOp) : Except RenderError Nat :=
  match op.rank? with
  | some n => .ok n
  | none => .error (.noPrecedence op.name)

/-- An operator with a symbol has a precedence. -/
theorem rank?_isSome_of_symbol? {op : BinaryOp} (h : op.symbol?.isSome = true) :
    op.rank?.isSome = true := by
  cases op <;> simp_all [symbol?, rank?]

end BinaryOp

/-- Does `child`, under its implicit conversions, bind looser than the operator `parent`?  The
precedence of the child's operator is looked up first. -/
def needsParens (child : Expr) (parent : BinaryOp) : Except RenderError Bool :=
  match child.unwrap with
  | .binary op _ _ => do
    let inner ← op.precedence
    let outer ← parent.precedence
    return inner < outer
  | _ => return false

/-- The text in parentheses. -/
def parens (s : String) : String := "(" ++ s ++ ")"

/-- The text of `child` as an operand of `parent`. -/
def operandText (child : Expr) (parent : BinaryOp) (text : String) : Except RenderError String := do
  let wrap ← needsParens child parent
  return if wrap then parens text else text

end DocQuery
