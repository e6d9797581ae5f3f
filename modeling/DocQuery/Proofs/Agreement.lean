import DocQuery.Proofs.Readable
import DocQuery.Proofs.Results

/-!
# Typed queries as chosen clauses

A typed query is the query with the clauses `SELECT`, `WHERE` and `ORDER BY` and with the
discriminator as an extra predicate.

* `Assembler.clauseText_eq`: the clauses are the query with their joined predicates, as a typed
  query is with its own.
* `Assembler.conjunct_eq_empty`: next to another predicate, a filter has no characters exactly if it
  has none alone.
* `Assembler.query_eq_clauses`: the two forms agree unless the filter has no characters; then the
  typed query still has the word `AND`.
-/

namespace DocQuery

namespace Expr

variable {f : Formatter} {mode : Mode}

theorem render_binary_ne_empty (op : BinaryOp) (l r : Expr) :
    (Expr.binary op l r).render f mode ≠ .ok "" := by
  intro h
  rw [render] at h
  simp only [bind_eq_ok] at h
  obtain ⟨symbol, -, _, -, tl, -, _, -, tr, -, htext⟩ := h
  have hempty : tl ++ " " ++ symbol ++ " " ++ tr = "" := Except.ok.inj htext
  simp at hempty

/-- Nothing is put in parentheses unless it has characters. -/
theorem needsParens_of_render_empty {e : Expr} (h : e.render f mode = .ok "") (op : BinaryOp) :
    needsParens e op = .ok false := by
  rw [← render_unwrap] at h
  rw [needsParens]
  cases hu : e.unwrap with
  | binary op' l r =>
    rw [hu] at h
    exact absurd h (render_binary_ne_empty op' l r)
  | _ => rfl

end Expr

namespace Assembler

variable {a : Assembler}

/-- Next to another predicate, a filter has no characters exactly if it has none alone. -/
theorem conjunct_eq_empty {e : Expr} :
    a.conjunct e = .ok "" ↔ e.renderFilter a.formatter = .ok "" := by
  rw [conjunct]
  constructor
  · intro h
    obtain ⟨s, hs, htext⟩ := bind_eq_ok.1 h
    obtain ⟨wrap, -, hwrap⟩ := bind_eq_ok.1 htext
    have hempty : (if wrap then parens s else s) = "" := Except.ok.inj hwrap
    cases wrap with
    | true => simp [parens] at hempty
    | false =>
      rw [hs]
      exact congrArg Except.ok hempty
  · intro h
    rw [h]
    show operandText e .and "" = .ok ""
    rw [operandText, Expr.needsParens_of_render_empty h]
    rfl

/-! ## Both forms -/

/-- The clauses `SELECT`, `WHERE` and `ORDER BY`. -/
def typedClauses : Clauses := { select := true, filter := true, orderBy := true }

theorem whereParts_typedClauses (o : QueryOptions) (extra : Option String) :
    a.whereParts { o with select := none } typedClauses extra =
      (a.predicates o extra).map fun ps =>
        if ps.isEmpty then [] else ["WHERE " ++ " AND ".intercalate ps] := by
  show (a.predicates o extra >>= fun ps =>
    .ok (if ps.isEmpty then [] else ["WHERE " ++ " AND ".intercalate ps])) = _
  cases a.predicates o extra <;> rfl

theorem clauseText_eq {o : QueryOptions} {extra : Option String} {ps : List String}
    (hps : a.predicates o extra = .ok ps) (hne : ps ≠ []) :
    a.clauseText { o with select := none } typedClauses extra =
      a.withPredicate (" AND ".intercalate ps) o.orderBy := by
  have hwhere : a.whereParts { o with select := none } typedClauses extra =
      .ok ["WHERE " ++ " AND ".intercalate ps] := by
    rw [whereParts_typedClauses, hps, Except.map, if_neg (by simpa using hne)]
  rw [clauseText, hwhere, withPredicate]
  show ((a.orderParts o.orderBy).mapError QueryError.render >>= fun order =>
    .ok (" ".intercalate
      (["SELECT * " ++ a.fromClause] ++ ["WHERE " ++ " AND ".intercalate ps] ++ order))) = _
  cases a.orderParts o.orderBy with
  | error err => rfl
  | ok parts =>
    have htext : " ".intercalate
        (["SELECT * " ++ a.fromClause] ++ ["WHERE " ++ " AND ".intercalate ps] ++ parts) =
        " ".intercalate (["SELECT *", a.fromClause, "WHERE " ++ " AND ".intercalate ps] ++ parts) :=
      String.toList_inj.1 (by simp)
    exact congrArg Except.ok htext

theorem clauseText_of_error {o : QueryOptions} {extra : Option String} {err : RenderError}
    (hps : a.predicates o extra = .error err) :
    a.clauseText { o with select := none } typedClauses extra = .error (.render err) := by
  rw [clauseText, whereParts_typedClauses, hps]
  rfl

theorem discriminator_ne_empty (typeName : String) : a.discriminator typeName ≠ "" := by
  simp [discriminator]

/-- Unless the filter has no characters, both forms have the same predicate. -/
theorem queryText_eq_clauseText {o : QueryOptions} {typeName : String} (hne : typeName ≠ "")
    (hfilter : ∀ e, o.filter = some e → a.conjunct e ≠ .ok "") :
    a.queryText o typeName =
      a.clauseText { o with select := none } typedClauses (some (a.discriminator typeName)) := by
  have hd : a.discriminator typeName ≠ "" := discriminator_ne_empty typeName
  rcases Option.eq_none_or_eq_some o.filter with ho | ⟨e, ho⟩
  · rw [queryText_eq hne (typedPredicate_of_none ho typeName),
      clauseText_eq (predicates_of_none ho hd) (by simp)]
    rfl
  · have hw := typedPredicate_of_filter (a := a) ho typeName
    have hps := predicates_of_filter (a := a) ho hd
    cases hs : a.conjunct e with
    | error err =>
      rw [hs] at hw hps
      rw [queryText_of_error hne hw, clauseText_of_error hps]
    | ok s =>
      have hs' : s ≠ "" := fun h => hfilter e ho (h ▸ hs)
      rw [hs, Except.map] at hw hps
      rw [if_neg hs'] at hps
      rw [queryText_eq hne hw, clauseText_eq hps (by simp)]
      rfl

/-- If the filter has no characters, the typed query still has the word `AND`. -/
theorem query_and_clauses_of_empty {o : QueryOptions} {e : Expr} {typeName : String}
    (hne : typeName ≠ "") (ho : o.filter = some e) (hs : a.conjunct e = .ok "") :
    a.queryText o typeName = a.withPredicate (a.discriminator typeName ++ " AND ") o.orderBy ∧
      a.clauseText { o with select := none } typedClauses (some (a.discriminator typeName)) =
        a.withPredicate (a.discriminator typeName) o.orderBy := by
  have hw := typedPredicate_of_filter (a := a) ho typeName
  have hps := predicates_of_filter (a := a) ho (discriminator_ne_empty (a := a) typeName)
  rw [hs, Except.map] at hw hps
  rw [if_pos rfl] at hps
  rw [String.append_empty] at hw
  refine ⟨queryText_eq hne hw, ?_⟩
  rw [clauseText_eq hps (by simp)]
  rfl

/-- A typed query and the clauses `SELECT`, `WHERE` and `ORDER BY` with the discriminator as an
extra predicate have the same text or fail alike, unless the filter has no characters.  In that case
the typed query has the word `AND` behind the discriminator, and both fail if the order has no
text. -/
theorem query_eq_clauses {o : QueryOptions} {typeName : String} (hne : typeName ≠ "")
    (htop : o.top.isWhole = true) (parser parser' : SqlParser) (feed : Feed) :
    let d := a.formatter.field a.settings.typeField ++ " = '" ++ Text.upper typeName ++ "'"
    let typed := (a.query parser o typeName feed).2.result
    let chosen := (a.clauses parser' { o with select := none } typedClauses (some d)).result
    ((∀ e, o.filter = some e → e.renderFilter a.formatter ≠ .ok "") →
      typed = chosen.mapError .query) ∧
      ∀ e, o.filter = some e → e.renderFilter a.formatter = .ok "" →
        (∀ tail, a.IsOrderTail tail o.orderBy →
          chosen = .ok ("SELECT * FROM " ++ a.formatter.aliasText ++ " WHERE " ++ d ++ tail) ∧
          typed = .ok ("SELECT * FROM " ++ a.formatter.aliasText ++ " WHERE " ++ d ++ " AND " ++
            tail)) ∧
        ∀ order err, o.orderBy = some order → order.render a.formatter = .error err →
          chosen = .error (.render err) ∧ typed = .error (.query (.render err)) := by
  intro d typed chosen
  have hd : d = a.discriminator typeName := rfl
  have htyped : typed = (a.queryText o typeName).mapError .query :=
    query_result_of_isWhole htop parser typeName feed
  have hchosen : chosen = a.clauseText { o with select := none } typedClauses (some d) :=
    clauses_result parser' _ _ _
  refine ⟨fun hfilter => ?_, fun e ho hs => ?_⟩
  · rw [htyped, hchosen, hd,
      queryText_eq_clauseText hne fun e ho hs => hfilter e ho (conjunct_eq_empty.1 hs)]
  · obtain ⟨hquery, hclauses⟩ := query_and_clauses_of_empty hne ho (conjunct_eq_empty.2 hs)
    rw [htyped, hchosen, hd, hquery, hclauses]
    refine ⟨fun tail htail => ?_, fun order err horder herr => ?_⟩
    · rw [withPredicate_of_tail htail, withPredicate_of_tail htail, ← String.append_assoc]
      exact ⟨rfl, rfl⟩
    · rw [horder, withPredicate_of_error herr, withPredicate_of_error herr]
      exact ⟨rfl, rfl⟩

/-- The filter `$it` has no characters. -/
theorem query_eq_clauses_it :
    (plain.query (fun _ => .select) { filter := some .it, top := .int 10 } "Foo" {}).2.result =
        .ok "SELECT * FROM c WHERE c._t = 'FOO' AND " ∧
      (plain.clauses (fun _ => .select) { filter := some .it, top := .int 10 } typedClauses
        (some "c._t = 'FOO'")).result = .ok "SELECT * FROM c WHERE c._t = 'FOO'" := by
  have hempty := (query_eq_clauses (a := plain) (o := { filter := some .it, top := .int 10 })
    (show "Foo" ≠ "" by decide) rfl (fun _ => .select) (fun _ => .select) {}).2 .it rfl rfl
  obtain ⟨hchosen, htyped⟩ := hempty.1 "" rfl
  exact ⟨htyped, hchosen⟩

end Assembler

end DocQuery
