import DocQuery.Expr.Build
import DocQuery.Formatter.Basic
import DocQuery.Render.Precedence

/-!
# Rendering expressions

`Expr.render f mode e` is the SQL text of `e`, with fields spelled by the formatter `f`, or the
first reason why there is none.  `mode` decides the case of the word for negation.
-/

namespace DocQuery

/-- What an expression is rendered for. -/
inductive Mode where
  | filter | search
  deriving DecidableEq, Repr

namespace Mode

/-- The word for negation. -/
def notWord : Mode → String
  | .filter => "not"
  | .search => "NOT"

end Mode

namespace UnaryOp

/-- The token that stands for an operator. -/
def token (mode : Mode) : UnaryOp → Except RenderError String
  | .negate => .ok "-"
  | .not => .ok mode.notWord
  | .other n => .error (.noSymbol n)

end UnaryOp

namespace Constant

/-- The text of a constant. -/
def render (f : Formatter) (c : Constant) : String :=
  if c.value.isNull then "null"
  else if c.isEnum then f.enumLiteral c.text (c.typeName.getD "")
  else c.text

end Constant

namespace Expr

/-- The text of a range variable; the queried document itself has none. -/
def rangeVarText (name : String) (entity : Bool) : String :=
  if entity && name == itName then "" else name

/-- The range variable of a quantifier, which must not be blank. -/
def boundName (kind : QuantifierKind) : Option String → Except RenderError String
  | some v => if Text.isBlankText v then .error (.noRangeVariable kind.name) else .ok v
  | none => .error (.noRangeVariable kind.name)

mutual

/-- The SQL text of an expression. -/
def render (f : Formatter) (mode : Mode) : Expr → Except RenderError String
  | .constant c => .ok (c.render f)
  | .convert source _ => source.render f mode
  | .binary op left right => do
    let symbol ← op.symbol
    let l ← left.render f mode
    let l ← operandText left op l
    let r ← right.render f mode
    let r ← operandText right op r
    return l ++ " " ++ symbol ++ " " ++ r
  | .unary op operand => do
    let token ← op.token mode
    let s ← operand.render f mode
    return if operand.isAtomic then token ++ " " ++ s else token ++ parens s
  | .access _ name source => do
    let s ← if source.isMissing then .ok "" else source.render f mode
    return f.access s name
  | .rangeVar name entity => .ok (rangeVarText name entity)
  | .quantifier .any source body none =>
    if body.isConstant then do
      let s ← source.render f mode
      return s ++ "/any()"
    else .error .bodyNotConstant
  | .quantifier kind source body var => do
    let v ← boundName kind var
    let s ← source.render f mode
    let b ← body.render f mode
    return s ++ "/" ++ kind.name ++ "(" ++ v ++ ":" ++ b ++ ")"
  | .call name args source _ => do
    let target ← if source.isMissing then .ok name else (source.render f mode).map (f.access · name)
    let texts ← renderAll f mode args
    return target ++ "(" ++ ",".intercalate texts ++ ")"
  | .namedArg name value => do
    let s ← value.render f mode
    return name ++ "=" ++ s
  | .paramAlias name => .ok name
  | .searchTerm text => .ok text
  | .foreign value => .error (.foreignNode value.kindName)

/-- The SQL texts of the expressions, in order. -/
def renderAll (f : Formatter) (mode : Mode) : List Expr → Except RenderError (List String)
  | [] => .ok []
  | e :: es => do
    let s ← e.render f mode
    let ss ← renderAll f mode es
    return s :: ss

end

end Expr

end DocQuery
