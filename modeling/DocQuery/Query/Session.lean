import DocQuery.Query.Run

/-!
# Sessions

A `Session` is an assembler with the feed that its typed queries share.

* `Session.start` sets one up: settings first, then the formatter, then the feed; the first fault
  ends it.
* `Session.serve` answers one request, and `Session.serveAll` a run of them.
-/

namespace DocQuery

/-- The choice of a formatter: by name, by the name in the settings, or as given. -/
inductive FormatterChoice where
  | named (name : String)
  | configured
  | given (provider : Provider) (aliasText : String)

/-- Why a session cannot start. -/
inductive SetupError where
  | settings (faults : List FieldFault)
  | formatter (e : FormatterError)
  | feed (fault : FieldFault)
  deriving DecidableEq, Repr

/-- An assembler with its feed. -/
structure Session where
  assembler : Assembler
  feed : Feed

/-- A request to a session. -/
inductive Request where
  /-- A query for the documents of one type. -/
  | query (options : QueryOptions) (typeName : String)
  /-- The wanted clauses of a query. -/
  | clauses (options : QueryOptions) (wanted : Clauses) (extra : Option String)
  /-- The same, with an expression without text reported and not as an error. -/
  | tryClauses (options : QueryOptions) (wanted : Clauses) (extra : Option String)

namespace Session

/-- The assembler for a choice of formatter. -/
def assemblerFor (r : Registry) (settings : Settings) :
    FormatterChoice → Except FormatterError Assembler
  | .named name => Assembler.ofName r settings (some name)
  | .configured => Assembler.ofName r settings none
  | .given provider aliasText => do
    let formatter ← Formatter.ofText provider aliasText
    return { formatter, settings }

/-- Set up a session. -/
def start (r : Registry) (sources : Settings.Sources) (choice : FormatterChoice)
    (feedFields : List (String × Value)) : Except SetupError Session := do
  let settings ← (Settings.load sources).mapError .settings
  let assembler ← (assemblerFor r settings choice).mapError .formatter
  let feed ← (Feed.ofFields feedFields).mapError .feed
  return { assembler, feed }

/-- Set the page size of the feed. -/
def setFeed (s : Session) (v : Value) : Except FieldFault Session := do
  let feed ← s.feed.assign v
  return { s with feed }

/-- Answer one request.  Only a typed query with a text touches the feed. -/
def serve (s : Session) (parser : SqlParser) :
    Request → Session × Attempt Assembler.Failure (Option String)
  | .query options typeName =>
    let (feed, x) := s.assembler.query parser options typeName s.feed
    ({ s with feed }, x.map (·.map some))
  | .clauses options wanted extra =>
    (s, (s.assembler.clauses parser options wanted extra).map fun r => (r.map some).mapError .query)
  | .tryClauses options wanted extra =>
    (s, (s.assembler.tryClauses parser options wanted extra).map (·.mapError .query))

/-- Answer a run of requests, each with its own parser: the session after it. -/
def serveAll (s : Session) (requests : List (SqlParser × Request)) : Session :=
  requests.foldl (fun s x => (s.serve x.1 x.2).1) s

end Session

end DocQuery
