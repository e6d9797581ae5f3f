import DocQuery.Query.Session

/-!
# Results of the operations

What an operation of an assembler returns, apart from what it reports: checking a finished text
changes neither the text nor the error.

* `Assembler.withPredicate`: the query with a given predicate; a typed query is one.
* `Value.isWhole`: the values that a limit is meant to have.
* `Assembler.query_result_of_isWhole`: with such a limit, a typed query returns its text or the
  reason why it has none.
* `Assembler.LimitFits`: the limits that do no harm to chosen clauses.
-/

namespace DocQuery

/-- Of two computations in a row that succeed, both succeed. -/
theorem bind_eq_ok {ε α β : Type} {x : Except ε α} {k : α → Except ε β} {b : β} :
    x >>= k = .ok b ↔ ∃ a, x = .ok a ∧ k a = .ok b := by
  cases x <;> simp [bind, Except.bind]

theorem map_eq_ok {ε α β : Type} {x : Except ε α} {g : α → β} {b : β} :
    x.map g = .ok b ↔ ∃ a, x = .ok a ∧ g a = b := by
  cases x <;> simp [Except.map]

theorem map_eq_error {ε α β : Type} {x : Except ε α} {g : α → β} {e : ε} :
    x.map g = .error e ↔ x = .error e := by
  cases x <;> simp [Except.map]

theorem mapError_eq_ok {ε ε' α : Type} {x : Except ε α} {g : ε → ε'} {a : α} :
    x.mapError g = .ok a ↔ x = .ok a := by
  cases x with
  | error e => exact ⟨fun h => (by cases h), fun h => (by cases h)⟩
  | ok b =>
    exact ⟨fun h => congrArg Except.ok (Except.ok.inj h),
      fun h => congrArg Except.ok (Except.ok.inj h)⟩

theorem mapError_eq_error {ε ε' α : Type} {x : Except ε α} {g : ε → ε'} {e : ε'} :
    x.mapError g = .error e ↔ ∃ e', x = .error e' ∧ g e' = e := by
  cases x with
  | error e' =>
    constructor
    · exact fun h => ⟨e', rfl, Except.error.inj h⟩
    · rintro ⟨_, h, rfl⟩
      cases h
      rfl
  | ok a =>
    constructor
    · intro h
      cases h
    · rintro ⟨_, h, -⟩
      cases h

/-- Is the value a whole number, or nothing?  Truth values count as numbers. -/
def Value.isWhole : Value → Bool
  | .null | .bool _ | .int _ => true
  | _ => false

/-- The page size is set to nothing by a null, and to a positive whole number in any of its
forms. -/
theorem Feed.assign_eq_ok {feed feed' : Feed} {v : Value} :
    feed.assign v = .ok feed' ↔
      v = .null ∧ feed' = {} ∨
        ∃ (n : Int) (h : 0 < n), lenientInt v = .ok n ∧ feed' = .ofSize n h := by
  rw [assign, mapError_eq_ok]
  by_cases hnull : v = .null
  · subst hnull
    simp [ofValue, lenientInt, eq_comm]
  · have hvalue : ofValue v =
        (lenientInt v).bind fun n =>
          if h : 0 < n then .ok (ofSize n h) else .error .notPositive := by
      cases v with
      | null => exact absurd rfl hnull
      | _ => rfl
    rw [hvalue]
    cases hn : lenientInt v with
    | error fault => simp [Except.bind, hnull]
    | ok n => by_cases hpos : 0 < n <;> simp [Except.bind, hnull, hpos, eq_comm]

namespace Assembler

/-- The assembler with nothing chosen. -/
def plain : Assembler := ⟨.default, {}⟩

variable {a : Assembler}

theorem settle_result {ε : Type} (parser : SqlParser) (text : Except ε String) :
    (a.settle parser text).result = text := by
  cases text with
  | error e => rfl
  | ok sql =>
    rw [settle, finish]
    split <;> rfl

theorem clauses_result (parser : SqlParser) (o : QueryOptions) (c : Clauses)
    (extra : Option String) :
    (a.clauses parser o c extra).result = a.clauseText o c extra :=
  settle_result parser _

theorem query_result (parser : SqlParser) (o : QueryOptions) (typeName : String) (feed : Feed) :
    (a.query parser o typeName feed).2.result = (a.pagedText o typeName feed).map (·.2) := by
  cases h : a.pagedText o typeName feed with
  | error e =>
    simp only [query, h]
    exact settle_result (a := a) parser (.error e)
  | ok p =>
    simp only [query, h]
    exact settle_result parser (.ok p.2)

/-- A typed query succeeds if it has a text and the feed takes the page size. -/
theorem query_result_eq_ok {parser : SqlParser} {o : QueryOptions} {typeName : String} {feed : Feed}
    {sql : String} :
    (a.query parser o typeName feed).2.result = .ok sql ↔
      a.queryText o typeName = .ok sql ∧ ∃ feed', paged o.limit feed = .ok feed' := by
  rw [query_result, pagedText, map_eq_ok]
  constructor
  · rintro ⟨p, h, rfl⟩
    obtain ⟨sql, hsql, h⟩ := bind_eq_ok.1 h
    obtain ⟨feed', hfeed, h⟩ := bind_eq_ok.1 h
    cases h
    exact ⟨mapError_eq_ok.1 hsql, feed', hfeed⟩
  · rintro ⟨hsql, feed', hfeed⟩
    exact ⟨(feed', sql), by rw [hsql, hfeed]; rfl, rfl⟩

/-! ## The text of a typed query -/

/-- What stands behind the predicate of a typed query. -/
def IsOrderTail (a : Assembler) (tail : String) : Option OrderBy → Prop
  | none => tail = ""
  | some order => ∃ t, order.render a.formatter = .ok t ∧ tail = " ORDER BY " ++ t

/-- Behind the predicate stands an order or nothing, unless the order has no text. -/
theorem isOrderTail_or_error (a : Assembler) (order : Option OrderBy) :
    (∃ tail, a.IsOrderTail tail order) ∨
      ∃ o err, order = some o ∧ o.render a.formatter = .error err := by
  cases order with
  | none => exact .inl ⟨"", rfl⟩
  | some o =>
    cases h : o.render a.formatter with
    | error err => exact .inr ⟨o, err, rfl, h⟩
    | ok t => exact .inl ⟨" ORDER BY " ++ t, t, h, rfl⟩

/-- The query with the given predicate and order. -/
def withPredicate (a : Assembler) (predicate : String) (order : Option OrderBy) :
    Except QueryError String :=
  ((a.orderParts order).map fun parts =>
    " ".intercalate (["SELECT *", a.fromClause, "WHERE " ++ predicate] ++ parts)).mapError .render

theorem withPredicate_of_tail {tail : String} {order : Option OrderBy}
    (h : a.IsOrderTail tail order) (w : String) :
    a.withPredicate w order =
      .ok ("SELECT * FROM " ++ a.formatter.aliasText ++ " WHERE " ++ w ++ tail) := by
  cases order with
  | none =>
    obtain rfl : tail = "" := h
    exact congrArg Except.ok (String.toList_inj.1 (by simp [fromClause]))
  | some o =>
    obtain ⟨t, ht, rfl⟩ := h
    rw [withPredicate, orderParts, orderClause, ht]
    exact congrArg Except.ok (String.toList_inj.1 (by simp [fromClause]))

theorem withPredicate_of_error {o : OrderBy} {err : RenderError}
    (h : o.render a.formatter = .error err) (w : String) :
    a.withPredicate w (some o) = .error (.render err) := by
  rw [withPredicate, orderParts, orderClause, h]
  rfl

theorem queryText_eq {o : QueryOptions} {typeName w : String} (hne : typeName ≠ "")
    (hw : a.typedPredicate o typeName = .ok w) :
    a.queryText o typeName = a.withPredicate w o.orderBy := by
  rw [queryText, if_neg hne, typedParts, hw, withPredicate]
  cases a.orderParts o.orderBy <;> rfl

theorem queryText_of_error {o : QueryOptions} {typeName : String} {err : RenderError}
    (hne : typeName ≠ "") (hw : a.typedPredicate o typeName = .error err) :
    a.queryText o typeName = .error (.render err) := by
  rw [queryText, if_neg hne, typedParts, hw]
  rfl

theorem queryText_eq_ok {o : QueryOptions} {typeName w sql : String} (hne : typeName ≠ "")
    (hw : a.typedPredicate o typeName = .ok w) :
    a.queryText o typeName = .ok sql ↔
      ∃ tail, a.IsOrderTail tail o.orderBy ∧
        sql = "SELECT * FROM " ++ a.formatter.aliasText ++ " WHERE " ++ w ++ tail := by
  rw [queryText_eq hne hw]
  constructor
  · intro h
    rcases a.isOrderTail_or_error o.orderBy with ⟨tail, htail⟩ | ⟨order, err, horder, herr⟩
    · rw [withPredicate_of_tail htail] at h
      exact ⟨tail, htail, (Except.ok.inj h).symm⟩
    · rw [horder, withPredicate_of_error herr] at h
      cases h
  · rintro ⟨tail, htail, rfl⟩
    exact withPredicate_of_tail htail w

/-! ## Predicates -/

section Predicates

variable {o : QueryOptions} {e : Expr}

theorem typedPredicate_of_none (h : o.filter = none) (typeName : String) :
    a.typedPredicate o typeName = .ok (a.discriminator typeName) := by
  rw [typedPredicate, h]

theorem typedPredicate_of_filter (h : o.filter = some e) (typeName : String) :
    a.typedPredicate o typeName = (a.conjunct e).map fun s =>
      a.discriminator typeName ++ " AND " ++ s := by
  rw [typedPredicate, h]
  rfl

theorem predicates_of_none (h : o.filter = none) {extra : String} (hextra : extra ≠ "") :
    a.predicates o (some extra) = .ok [extra] := by
  simp [predicates, h, Option.filter, hextra, pure, Except.pure]

/-- Behind an extra predicate, a filter is written as an operand of `AND`, and left out if it has no
characters. -/
theorem predicates_of_filter (h : o.filter = some e) {extra : String} (hextra : extra ≠ "") :
    a.predicates o (some extra) = (a.conjunct e).map fun s =>
      if s = "" then [extra] else [extra, s] := by
  have hfirst : ((some extra).filter (· ≠ "")).toList = [extra] := by simp [Option.filter, hextra]
  rw [predicates, hfirst, h]
  show (a.conjunct e >>= fun s => .ok (([extra] ++ [s]).filter (· ≠ ""))) = _
  cases a.conjunct e with
  | error err => rfl
  | ok s => by_cases hs : s = "" <;> simp [bind, Except.bind, Except.map, hs, hextra]

end Predicates

/-! ## Limits -/

/-- A whole number is no limit, or a positive one that can be read as a whole number. -/
theorem limit_of_isWhole {v : Value} (h : v.isWhole = true) :
    Limit.ofValue v = .none ∨
      Limit.ofValue v = .positive v ∧ ∃ n, lenientInt v = .ok n ∧ 0 < n := by
  cases v with
  | null => exact .inl rfl
  | bool b =>
    cases b with
    | false => exact .inl rfl
    | true => exact .inr ⟨rfl, 1, rfl, by decide⟩
  | int n =>
    rw [Limit.ofValue_int]
    by_cases hn : 0 < n
    · exact .inr ⟨if_pos hn, n, rfl, hn⟩
    · exact .inl (if_neg hn)
  | _ => simp [Value.isWhole] at h

/-- Every positive whole number is a page size. -/
theorem paged_of_isWhole {v : Value} (h : v.isWhole = true) (feed : Feed) :
    ∃ feed', paged (.ofValue v) feed = .ok feed' := by
  rcases limit_of_isWhole h with hnone | ⟨hpos, n, hn, hn0⟩
  · exact ⟨feed, by rw [hnone, paged]⟩
  · have hassign : feed.assign v = .ok (.ofSize n hn0) :=
      Feed.assign_eq_ok.2 (.inr ⟨n, hn0, hn, rfl⟩)
    refine ⟨.ofSize n hn0, ?_⟩
    rw [hpos, paged, hassign]
    rfl

/-- A limit that the wanted clauses show can be compared with zero. -/
def LimitFits (o : QueryOptions) (c : Clauses) : Prop :=
  c.select = true → c.top = true → o.limit ≠ .incomparable

theorem limitFits_of_isWhole {o : QueryOptions} (h : o.top.isWhole = true) (c : Clauses) :
    LimitFits o c := by
  intro _ _ hlimit
  have hvalue : Limit.ofValue o.top = .incomparable := hlimit
  rcases limit_of_isWhole h with hnone | ⟨hpos, -⟩
  · exact absurd (hnone.symm.trans hvalue) (by simp)
  · exact absurd (hpos.symm.trans hvalue) (by simp)

/-- With a limit that is a whole number, a typed query returns its text or the reason why it has
none. -/
theorem query_result_of_isWhole {o : QueryOptions} (h : o.top.isWhole = true) (parser : SqlParser)
    (typeName : String) (feed : Feed) :
    (a.query parser o typeName feed).2.result = (a.queryText o typeName).mapError .query := by
  obtain ⟨feed', hfeed⟩ := paged_of_isWhole h feed
  have hlimit : paged o.limit feed = .ok feed' := hfeed
  rw [query_result, pagedText, hlimit]
  cases a.queryText o typeName <;> rfl

/-! ## Failures -/

/-- A typed query has no text because its type has no name or because an expression has no text. -/
theorem queryText_error {o : QueryOptions} {typeName : String} {e : QueryError}
    (h : a.queryText o typeName = .error e) : e = .noTypeName ∨ ∃ err, e = .render err := by
  rw [queryText] at h
  split at h
  · cases h
    exact .inl rfl
  · cases hparts : a.typedParts o typeName with
    | error err =>
      rw [hparts] at h
      cases h
      exact .inr ⟨err, rfl⟩
    | ok parts =>
      rw [hparts] at h
      cases h

/-- With a limit that fits, nothing is wrong with the `SELECT` clause. -/
theorem selectParts_of_limitFits {o : QueryOptions} {c : Clauses} (hlimit : LimitFits o c) :
    ∃ parts, a.selectParts o c = .ok parts := by
  rw [selectParts]
  by_cases hc : c.select = true
  · have hshown : (if c.top then o.limit else .none) ≠ .incomparable := by
      by_cases ht : c.top = true
      · rw [if_pos ht]
        exact hlimit hc ht
      · rw [if_neg ht]
        simp
    rw [if_pos hc]
    cases htext : (if c.top then o.limit else .none) with
    | none => exact ⟨_, rfl⟩
    | positive top => exact ⟨_, rfl⟩
    | incomparable => exact absurd htext hshown
  · exact ⟨[], if_neg hc⟩

/-- With a limit that fits, wanted clauses have no text only because an expression has no text. -/
theorem clauseText_error {o : QueryOptions} {c : Clauses} (hlimit : LimitFits o c)
    {extra : Option String} {e : QueryError} (h : a.clauseText o c extra = .error e) :
    ∃ err, e = .render err := by
  obtain ⟨parts, hparts⟩ := selectParts_of_limitFits (a := a) hlimit
  rw [clauseText, hparts] at h
  cases hwhere : a.whereParts o c extra with
  | error err =>
    rw [hwhere] at h
    cases h
    exact ⟨err, rfl⟩
  | ok filter =>
    cases horder : a.orderParts (if c.orderBy then o.orderBy else none) with
    | error err =>
      rw [hwhere, horder] at h
      cases h
      exact ⟨err, rfl⟩
    | ok order =>
      rw [hwhere, horder] at h
      cases h

/-- With a limit that fits, the forgiving form never fails: it returns the text of the clauses, if
they have one. -/
theorem tryClauses_result {o : QueryOptions} {c : Clauses} (hlimit : LimitFits o c)
    (parser : SqlParser) (extra : Option String) :
    (a.tryClauses parser o c extra).result = .ok (a.clauseText o c extra).toOption := by
  cases htext : a.clauseText o c extra with
  | ok sql =>
    simp only [tryClauses, forgive, clauses_result, htext]
    rfl
  | error e =>
    obtain ⟨err, rfl⟩ := clauseText_error hlimit htext
    simp only [tryClauses, forgive, clauses_result, htext]
    rfl

end Assembler

end DocQuery
