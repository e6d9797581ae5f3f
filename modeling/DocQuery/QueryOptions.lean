import DocQuery.OrderBy

/-!
# Query options

`QueryOptions` holds the filter, sort, projection, limit and search of one request.  `Builder`
collects them step by step, and `Builder.build` gives the options collected so far.
-/

namespace DocQuery

/-- The options of one request; `none` means that the option was not given, and so does a null for
`top`.  `select` is the list of names as it was written, with commas between them; `top` is meant to
be a whole number. -/
structure QueryOptions where
  filter : Option Expr := none
  orderBy : Option OrderBy := none
  select : Option String := none
  top : Value := .null
  search : Option Expr := none
  deriving Repr, Inhabited

/-- What a limit amounts to: nothing, a positive limit, or a value that cannot be compared with
zero. -/
inductive Limit where
  | none
  | positive (top : Value)
  | incomparable

/-- What a value amounts to as a limit. -/
def Limit.ofValue : Value → Limit
  | .null => .none
  | v => match v.isPositive? with
    | some true => .positive v
    | some false => .none
    | Option.none => .incomparable

namespace QueryOptions

/-- What the limit amounts to. -/
def limit (o : QueryOptions) : Limit := .ofValue o.top

end QueryOptions

theorem Limit.ofValue_int (n : Int) :
    Limit.ofValue (.int n) = if 0 < n then .positive (.int n) else .none := by
  by_cases h : 0 < n <;> simp [Limit.ofValue, Value.isPositive?, h]

/-- One step of a builder.  A sort key is ascending unless asked for otherwise. -/
inductive BuilderStep where
  | select (names : List String)
  | filter (condition : Expr)
  | orderBy (expr : Expr) (descending : Bool := false)
  | top (n : Value)
  | search (expr : Expr)
  deriving Repr

/-- Options under construction. -/
structure Builder where
  filter : Option Expr := none
  order : List OrderItem := []
  names : List String := []
  top : Value := .null
  search : Option Expr := none
  deriving Repr, Inhabited

namespace Builder

/-- Add a condition that has to hold too. -/
def addFilter (b : Builder) (condition : Expr) : Builder :=
  { b with filter := match b.filter with
      | none => condition.present?
      | some f => some (.binary .and f condition) }

/-- Take one step.  Conditions, sort keys and names add up; a limit or a search replaces the one
before. -/
def step (b : Builder) : BuilderStep → Builder
  | .select names => { b with names := b.names ++ names }
  | .filter condition => b.addFilter condition
  | .orderBy expr descending =>
    { b with order := b.order ++ [⟨expr, if descending then .descending else .ascending⟩] }
  | .top n => { b with top := n }
  | .search expr => { b with search := expr.present? }

/-- Take the steps in order. -/
def run (b : Builder) (steps : List BuilderStep) : Builder := steps.foldl step b

/-- The options collected so far. -/
def build (b : Builder) : QueryOptions :=
  { filter := b.filter
    orderBy := OrderBy.ofItems? b.order
    select := if b.names.isEmpty then none else some (",".intercalate b.names)
    top := b.top
    search := b.search }

@[simp] theorem run_nil (b : Builder) : b.run [] = b := rfl

end Builder

end DocQuery
