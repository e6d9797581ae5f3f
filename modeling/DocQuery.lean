import DocQuery.Expr.Basic
import DocQuery.Expr.Build
import DocQuery.Expr.Operator
import DocQuery.Feed
import DocQuery.Formatter.Basic
import DocQuery.Formatter.Registry
import DocQuery.Lenient
import DocQuery.Number.Binary64
import DocQuery.Number.Digits
import DocQuery.Number.Numeral
import DocQuery.Number.Shortest
import DocQuery.OrderBy
import DocQuery.Proofs.Reader.Phrase
import DocQuery.Proofs.Reader.Token
import DocQuery.Query.Check
import DocQuery.Query.Clauses
import DocQuery.Query.Run
import DocQuery.Query.Session
import DocQuery.Query.Text
import DocQuery.QueryOptions
import DocQuery.Render.Basic
import DocQuery.Render.Clause
import DocQuery.Render.Precedence
import DocQuery.Render.Visit
import DocQuery.Settings.Basic
import DocQuery.Settings.EnvFile
import DocQuery.Settings.Expand
import DocQuery.Text.Blank
import DocQuery.Text.Percent
import DocQuery.Text.Pieces
import DocQuery.Text.Quoted
import DocQuery.Text.Upper
import DocQuery.Value
import DocQuery.Proofs.Reader.Parse
import DocQuery.Proofs.Readable
import DocQuery.Proofs.Results
import DocQuery.Proofs.Conjunction
import DocQuery.Proofs.FirstDefect
import DocQuery.Proofs.Literal
import DocQuery.Proofs.Paging
import DocQuery.Proofs.Meaning
import DocQuery.Proofs.Parenthesisation
import DocQuery.Proofs.Agreement
import DocQuery.Proofs.Rendering
import DocQuery.Proofs.Template
import DocQuery.Proofs.SearchMode
import DocQuery.Proofs.Aliases
import DocQuery.Proofs.Validation
import DocQuery.Proofs.Registry
import DocQuery.Proofs.Conversion
import DocQuery.Proofs.Balance
import DocQuery.Proofs.Failures
import DocQuery.Proofs.RootPlaces
import DocQuery.Proofs.Builder
import DocQuery.Proofs.Chain
import DocQuery.Proofs.Forgiving
import DocQuery.Proofs.Composition
import DocQuery.Proofs.Skeleton
import DocQuery.Proofs.Path
import DocQuery.Proofs.Projection
import DocQuery.Proofs.Spacing
import DocQuery.Proofs.Seams
import DocQuery.Proofs.Comments
import DocQuery.Proofs.SortKeys
