import DocQuery.Render.Basic

/-!
# What rendering looks at

* `Expr.visited e`: the expressions that rendering `e` looks at, in that order.  The constant body
  of an `any` without a range variable is not among them, nor is a missing source.
* `Expr.defect? e`: what is wrong with `e` itself, its parts aside.
* `Expr.firstDefect? e`: the first defect on the way.
* `notices f es`: what is reported while the expressions `es` are rendered one after the other, up
  to the first defect.
-/

namespace DocQuery

namespace Expr

mutual

/-- The expressions that rendering looks at, each before its parts. -/
def visited : Expr → List Expr
  | .constant c => [.constant c]
  | .convert source t => .convert source t :: source.visited
  | .binary op left right => .binary op left right :: (left.visited ++ right.visited)
  | .unary op operand => .unary op operand :: operand.visited
  | .access how name source =>
    .access how name source :: (if source.isMissing then [] else source.visited)
  | .rangeVar name entity => [.rangeVar name entity]
  | .quantifier .any source body none => .quantifier .any source body none :: source.visited
  | .quantifier kind source body var =>
    .quantifier kind source body var :: (source.visited ++ body.visited)
  | .call name args source kind =>
    .call name args source kind ::
      ((if source.isMissing then [] else source.visited) ++ visitedAll args)
  | .namedArg name value => .namedArg name value :: value.visited
  | .paramAlias name => [.paramAlias name]
  | .searchTerm text => [.searchTerm text]
  | .foreign value => [.foreign value]

/-- The expressions that rendering a list looks at. -/
def visitedAll : List Expr → List Expr
  | [] => []
  | e :: es => e.visited ++ visitedAll es

end

/-- What is wrong with the expression itself. -/
def defect? : Expr → Option RenderError
  | .binary op _ _ => if op.symbol?.isSome then none else some (.noSymbol op.name)
  | .unary (.other n) _ => some (.noSymbol n)
  | .quantifier .any _ body none => if body.isConstant then none else some .bodyNotConstant
  | .quantifier kind _ _ var =>
    if var.all Text.isBlankText then some (.noRangeVariable kind.name) else none
  | .foreign value => some (.foreignNode value.kindName)
  | _ => none

/-- The first defect that rendering meets. -/
def firstDefect? (e : Expr) : Option RenderError := e.visited.findSome? defect?

/-- What the formatter reports about an expression. -/
def notice? (f : Formatter) : Expr → Option LogEntry
  | .constant c =>
    if c.isEnum && !c.value.isNull then f.enumNotice? c.text (c.typeName.getD "") else none
  | _ => none

end Expr

/-- What is reported while the expressions are rendered in order. -/
def notices (f : Formatter) (es : List Expr) : List LogEntry :=
  ((es.flatMap Expr.visited).takeWhile (·.defect?.isNone)).filterMap (·.notice? f)

end DocQuery
