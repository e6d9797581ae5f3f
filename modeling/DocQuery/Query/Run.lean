import DocQuery.Feed
import DocQuery.Query.Check
import DocQuery.Query.Text
import DocQuery.Render.Visit

/-!
# Running the assembler

The operations of an assembler with all that they report: the log, the statements handed to the SQL
parser and, for typed queries, the page size of the feed.

* `Assembler.query`: a typed query; a positive limit becomes the page size of the feed once the
  query has a text.
* `Assembler.clauses`: the wanted clauses.
* `Assembler.tryClauses`: the same, with an expression without text reported in the log and not as
  an error.
-/

namespace DocQuery

/-- What an operation gives: its result, the log, and the statements handed to the SQL parser. -/
structure Outcome (α : Type) where
  result : α
  log : List LogEntry := []
  parsed : List String := []

namespace Outcome

/-- The same outcome with another result. -/
def map {α β : Type} (g : α → β) (x : Outcome α) : Outcome β := ⟨g x.result, x.log, x.parsed⟩

/-- The same outcome with earlier entries in the log. -/
def after {α : Type} (entries : List LogEntry) (x : Outcome α) : Outcome α :=
  { x with log := entries ++ x.log }

end Outcome

/-- An outcome that may be an error. -/
abbrev Attempt (ε α : Type) := Outcome (Except ε α)

namespace Assembler

/-- Report a finished text, and have it checked if the settings say so. -/
def finish (a : Assembler) (parser : SqlParser) (sql : String) : Outcome String :=
  let done : LogEntry := ⟨.debug, .query, "Translated query: " ++ sql⟩
  if sql ≠ "" ∧ a.settings.validateSql then
    let check := checkSql parser a.formatter.aliasText sql
    { result := sql
      log := done :: check.log ++ check.errors.map fun e =>
        ⟨.warning, .query, "SQL validation: " ++ e⟩
      parsed := check.parsed }
  else { result := sql, log := [done] }

/-- The outcome for a text: finished, or an error. -/
def settle {ε : Type} (a : Assembler) (parser : SqlParser) : Except ε String → Attempt ε String
  | .ok sql => (a.finish parser sql).map .ok
  | .error e => { result := .error e }

/-- Why a typed query fails. -/
inductive Failure where
  | query (e : QueryError)
  | feed (fault : FieldFault)
  deriving DecidableEq, Repr

/-- The feed after a query: a positive limit is its new page size. -/
def paged (limit : Limit) (feed : Feed) : Except Failure Feed :=
  match limit with
  | .none => .ok feed
  | .positive top => (feed.assign top).mapError .feed
  | .incomparable => .error (.query .incomparableLimit)

/-- The feed after a typed query and the query's text, or the failure that leaves the feed as it
was. -/
def pagedText (a : Assembler) (o : QueryOptions) (typeName : String) (feed : Feed) :
    Except Failure (Feed × String) := do
  let sql ← (a.queryText o typeName).mapError .query
  let feed ← paged o.limit feed
  return (feed, sql)

/-- What is reported while the clauses of a typed query are rendered. -/
def typedNotices (a : Assembler) (o : QueryOptions) (typeName : String) : List LogEntry :=
  if typeName = "" then []
  else notices a.formatter (rendered o { filter := true, orderBy := true })

/-- Run a typed query on a feed. -/
def query (a : Assembler) (parser : SqlParser) (o : QueryOptions) (typeName : String)
    (feed : Feed) : Feed × Attempt Failure String :=
  let entries := a.typedNotices o typeName
  match a.pagedText o typeName feed with
  | .ok (feed, sql) => (feed, (a.settle parser (.ok sql)).after entries)
  | .error e => (feed, (a.settle parser (.error e)).after entries)

/-- What is reported while the wanted clauses are rendered: nothing, if there is no `SELECT` clause
to start with. -/
def clauseNotices (a : Assembler) (o : QueryOptions) (c : Clauses) : List LogEntry :=
  match a.selectParts o c with
  | .ok _ => notices a.formatter (rendered o c)
  | .error _ => []

/-- Render the wanted clauses. -/
def clauses (a : Assembler) (parser : SqlParser) (o : QueryOptions) (c : Clauses)
    (extra : Option String) : Attempt QueryError String :=
  (a.settle parser (a.clauseText o c extra)).after (a.clauseNotices o c)

/-- Turn an expression without text into a warning and no result. -/
def forgive (x : Attempt QueryError String) : Attempt QueryError (Option String) :=
  match x.result with
  | .ok sql => x.map fun _ => .ok (some sql)
  | .error (.render e) =>
    { result := .ok none, log := x.log ++
      [⟨.warning, .query, "Query translation failed: " ++ e.message⟩], parsed := x.parsed }
  | .error e => x.map fun _ => .error e

/-- Render the wanted clauses; if an expression has no text, the log tells why. -/
def tryClauses (a : Assembler) (parser : SqlParser) (o : QueryOptions) (c : Clauses)
    (extra : Option String) : Attempt QueryError (Option String) :=
  forgive (a.clauses parser o c extra)

end Assembler

end DocQuery
