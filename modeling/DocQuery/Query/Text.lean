import DocQuery.Formatter.Registry
import DocQuery.Query.Clauses
import DocQuery.QueryOptions
import DocQuery.Render.Clause
import DocQuery.Settings.Basic
import DocQuery.Text.Pieces
import DocQuery.Text.Upper

/-!
# The text of a query

An `Assembler` is a formatter with the settings it works under.

* `Assembler.queryText`: the query for the documents of one type.
* `Assembler.clauseText`: the wanted clauses of a query, in the order `SELECT`, `WHERE`, `ORDER BY`.
-/

namespace DocQuery

/-- Why a query has no text. -/
inductive QueryError where
  /-- The name of the type is empty. -/
  | noTypeName
  /-- The limit cannot be compared with zero. -/
  | incomparableLimit
  /-- An expression has no text. -/
  | render (e : RenderError)
  deriving DecidableEq, Repr

def QueryError.message : QueryError → String
  | .noTypeName => "A type name is required for the discriminator predicate"
  | .incomparableLimit => "The limit cannot be compared with zero"
  | .render e => e.message

/-- A formatter with the settings it works under. -/
structure Assembler where
  formatter : Formatter
  settings : Settings

namespace Assembler

/-- The assembler with a formatter of the given name, or of the name in the settings if there is
none. -/
def ofName (r : Registry) (settings : Settings) (name? : Option String) :
    Except FormatterError Assembler := do
  let formatter ← r.create (name?.getD settings.formatter) settings.rootAlias
  return { formatter, settings }

/-- The `FROM` clause. -/
def fromClause (a : Assembler) : String := "FROM " ++ a.formatter.aliasText

/-- The selected fields; all of them if no name is left once blank ones are dropped. -/
def projection (a : Assembler) : Option String → String
  | none => "*"
  | some names => match (Text.pieces ',' names).filter (!Text.isBlankText ·) with
    | [] => "*"
    | name :: rest => ", ".intercalate ((name :: rest).map a.formatter.field)

/-- The predicate that keeps the documents of one type. -/
def discriminator (a : Assembler) (typeName : String) : String :=
  a.formatter.field a.settings.typeField ++ " = '" ++ Text.upper typeName ++ "'"

/-- The text of a filter next to another predicate. -/
def conjunct (a : Assembler) (filter : Expr) : Except RenderError String := do
  let s ← filter.renderFilter a.formatter
  operandText filter .and s

/-- The `ORDER BY` clause. -/
def orderClause (a : Assembler) (o : OrderBy) : Except RenderError String := do
  let s ← o.render a.formatter
  return "ORDER BY " ++ s

/-- The `ORDER BY` clause as a list of at most one. -/
def orderParts (a : Assembler) : Option OrderBy → Except RenderError (List String)
  | none => .ok []
  | some o => do
    let s ← a.orderClause o
    return [s]

/-! ## Typed queries -/

/-- The predicate of a typed query. -/
def typedPredicate (a : Assembler) (o : QueryOptions) (typeName : String) :
    Except RenderError String :=
  match o.filter with
  | none => .ok (a.discriminator typeName)
  | some e => do
    let s ← a.conjunct e
    return a.discriminator typeName ++ " AND " ++ s

/-- The clauses of a typed query. -/
def typedParts (a : Assembler) (o : QueryOptions) (typeName : String) :
    Except RenderError (List String) := do
  let predicate ← a.typedPredicate o typeName
  let order ← a.orderParts o.orderBy
  return ["SELECT *", a.fromClause, "WHERE " ++ predicate] ++ order

/-- The query for the documents of one type. -/
def queryText (a : Assembler) (o : QueryOptions) (typeName : String) : Except QueryError String :=
  if typeName = "" then .error .noTypeName
  else do
    let parts ← (a.typedParts o typeName).mapError .render
    return " ".intercalate parts

/-! ## Chosen clauses -/

/-- The limit in a `SELECT` clause. -/
def limitText : Limit → Except QueryError String
  | .none => .ok ""
  | .positive top => .ok ("TOP " ++ top.display ++ " ")
  | .incomparable => .error .incomparableLimit

/-- The `SELECT` clause, if it is wanted. -/
def selectParts (a : Assembler) (o : QueryOptions) (c : Clauses) :
    Except QueryError (List String) :=
  if c.select then do
    let limit ← limitText (if c.top then o.limit else .none)
    return ["SELECT " ++ limit ++ a.projection o.select ++ " " ++ a.fromClause]
  else .ok []

/-- The predicates of the `WHERE` clause: an extra one, then the filter. -/
def predicates (a : Assembler) (o : QueryOptions) (extra : Option String) :
    Except RenderError (List String) := do
  let first := (extra.filter (· ≠ "")).toList
  match o.filter with
  | none => return first
  | some e => do
    let s ← if first.isEmpty then e.renderFilter a.formatter else a.conjunct e
    return (first ++ [s]).filter (· ≠ "")

/-- The `WHERE` clause, if it is wanted and has a predicate. -/
def whereParts (a : Assembler) (o : QueryOptions) (c : Clauses) (extra : Option String) :
    Except RenderError (List String) :=
  if c.filter then do
    let ps ← a.predicates o extra
    return if ps.isEmpty then [] else ["WHERE " ++ " AND ".intercalate ps]
  else .ok []

/-- The wanted clauses of a query. -/
def clauseText (a : Assembler) (o : QueryOptions) (c : Clauses) (extra : Option String) :
    Except QueryError String := do
  let select ← a.selectParts o c
  let filter ← (a.whereParts o c extra).mapError .render
  let order ← (a.orderParts (if c.orderBy then o.orderBy else none)).mapError .render
  return " ".intercalate (select ++ filter ++ order)

/-! ## Rendered expressions -/

/-- The expressions that the text of the wanted clauses renders, in order. -/
def rendered (o : QueryOptions) (c : Clauses) : List Expr :=
  (if c.filter then o.filter.toList else []) ++
    (if c.orderBy then ((o.orderBy.map OrderBy.items).getD []).map (·.expr) else [])

end Assembler

end DocQuery
