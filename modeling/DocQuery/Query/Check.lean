import DocQuery.Formatter.Basic
import DocQuery.Text.Upper

/-!
# Checking queries

`checkSql parser root sql` has a query, or a part of one, parsed by an outside SQL parser and
collects what is wrong with it.  Texts with the lambda operators `any` and `all` are not SQL and are
passed over; a part of a query is completed to a `SELECT` from the root alias first.
-/

namespace DocQuery

/-- What the SQL parser makes of a statement: a `SELECT`, a statement of another kind, or an
error. -/
inductive Parse where
  | select
  | other (kind : String)
  | failure (text : String)
  deriving DecidableEq, Repr

/-- An SQL parser. -/
abbrev SqlParser := String → Parse

/-- The dialect that statements are parsed in. -/
def parserDialect : String := "tsql"

/-- The result of a check: what is wrong, what was reported, and which statements were parsed. -/
structure Check where
  errors : List String := []
  log : List LogEntry := []
  parsed : List String := []
  deriving DecidableEq, Repr

/-- Does `part` stand somewhere in the characters? -/
def containsText (part : List Char) : List Char → Bool
  | [] => part.isEmpty
  | c :: cs => part.isPrefixOf (c :: cs) || containsText part cs

/-- The beginnings of the lambda operators. -/
def lambdaMarkers : List String := ["/any(", "/all("]

/-- Does a lambda operator occur in the text? -/
def hasLambda (sql : String) : Bool := lambdaMarkers.any fun m => containsText m.toList sql.toList

/-- Does the text start with the word `SELECT`, blanks and case aside? -/
def startsWithSelect (sql : String) : Bool :=
  "SELECT".toList.isPrefixOf (Text.upper (Text.stripStart sql)).toList

/-- The statement to parse for a query or a part of one. -/
def statementFor (root sql : String) : String :=
  if startsWithSelect sql then sql else "SELECT * FROM " ++ root ++ " " ++ sql

/-- What is wrong with a statement. -/
def parseErrors : Parse → List String
  | .select => []
  | .other kind => ["Expected a SELECT query, parsed " ++ Text.upper kind]
  | .failure text => [text]

/-- Check a query or a part of one. -/
def checkSql (parser : SqlParser) (root sql : String) : Check :=
  if hasLambda sql then
    { log := [⟨.debug, .query, "Skipping validation of lambda query: " ++ sql⟩] }
  else
    let statement := statementFor root sql
    { errors := parseErrors (parser statement), parsed := [statement] }

end DocQuery
