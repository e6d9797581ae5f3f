import DocQuery.OrderBy
import DocQuery.Render.Basic
import DocQuery.Text.Percent

/-!
# Rendering clauses

* `OrderBy.render`: the sort keys with their directions, separated by commas.
* `renderAliases`: parameter values as a query string.
* `Levels.text`: a depth of expansion.
-/

namespace DocQuery

namespace Expr

/-- The text of a filter. -/
def renderFilter (f : Formatter) (e : Expr) : Except RenderError String := e.render f .filter

/-- The text of a search. -/
def renderSearch (f : Formatter) (e : Expr) : Except RenderError String := e.render f .search

end Expr

/-- The SQL word for a direction; whatever is not ascending is descending. -/
def Direction.word : Direction → String
  | .ascending => "ASC"
  | _ => "DESC"

/-- The text of one sort key. -/
def OrderItem.render (f : Formatter) (item : OrderItem) : Except RenderError String := do
  let s ← item.expr.render f .filter
  return s ++ " " ++ item.direction.word

/-- The text of a sort. -/
def OrderBy.render (f : Formatter) (o : OrderBy) : Except RenderError String := do
  let texts ← o.items.mapM (OrderItem.render f)
  return ", ".intercalate texts

/-- The `name=value` texts of the parameters that have a value with a text. -/
def aliasPairs (f : Formatter) : List (String × Option Expr) → Except RenderError (List String)
  | [] => .ok []
  | (_, none) :: rest => aliasPairs f rest
  | (name, some e) :: rest => do
    let s ← e.render f .filter
    let pairs ← aliasPairs f rest
    return if s = "" then pairs else (name ++ "=" ++ Text.percentEncode s) :: pairs

/-- The parameters as a query string, if one has a value with a text. -/
def renderAliases (f : Formatter) (aliases : List (String × Option Expr)) :
    Except RenderError (Option String) := do
  let pairs ← aliasPairs f aliases
  return if pairs.isEmpty then none else some ("&".intercalate pairs)

/-- A depth of expansion: a level, or as far as it goes. -/
structure Levels where
  level : Value := .int 0
  isMax : Value := .bool false

/-- The text of a depth. -/
def Levels.text (l : Levels) : String := if l.isMax.isTrue then "max" else l.level.display

end DocQuery
