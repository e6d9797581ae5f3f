import DocQuery.Proofs.Builder
import DocQuery.Proofs.Conjunction
import DocQuery.Proofs.FirstDefect
import DocQuery.Proofs.Rendering

/-!
# Chains of conditions

Expressions that are joined by one connective are written in a row, with the connective between
them.

* `Expr.conjunctText`: the text of an operand of `AND`, in parentheses if it is a disjunction.
* `Expr.IsOperand f mode op e t`: as an operand of `op`, the expression `e` is written as the text
  `t`.
* `Expr.IsOperand.join`, `Expr.IsOperand.foldl`: one more operand is written behind those before it;
  hence a chain of any length is written in a row.
* `Assembler.chains_flat`: this holds of conjunctions and disjunctions, and of the conditions of a
  typed query, which stand behind the discriminator.
-/

namespace DocQuery

/-- The first text, and each of the others behind a separator. -/
theorem intercalate_cons_eq_join (sep t : String) (texts : List String) :
    sep.intercalate (t :: texts) = t ++ String.join (texts.map (sep ++ ·)) := by
  induction texts generalizing t with
  | nil => simp
  | cons u texts ih =>
    rw [String.intercalate_cons_cons, ih, List.map_cons, String.join_cons]
    simp only [String.append_assoc]

namespace Expr

variable {f : Formatter} {mode : Mode} {e : Expr} {s : String}

/-! ## Operands -/

theorem isMissing_of_render (h : e.render f mode = .ok s) : e.isMissing = false := by
  cases e with
  | foreign v => cases h
  | _ => rfl

theorem isDisjunction_unwrap (e : Expr) : e.unwrap.isDisjunction = e.isDisjunction := by
  induction e with
  | convert source t ih => rw [unwrap, ih, isDisjunction]
  | _ => rfl

/-- The operator of a rendered expression is a connective or a comparison. -/
theorem isCondition_of_unwrap (h : e.render f mode = .ok s) {op : BinaryOp} {l r : Expr}
    (hu : e.unwrap = .binary op l r) : op.isCondition = true := by
  rw [← render_unwrap, hu] at h
  obtain ⟨symbol, -, -, -, -, hop, -⟩ := render_binary_eq_ok.1 h
  have hsymbol : op.symbol?.isSome = true := by
    rw [BinaryOp.symbol] at hop
    cases hs : op.symbol? with
    | none => simp [hs] at hop
    | some s => rfl
  rwa [symbol?_isSome] at hsymbol

/-- Parentheses depend on how tightly the two operators hold. -/
theorem needsParens_of_unwrap {op op' : BinaryOp} {l r : Expr} (hu : e.unwrap = .binary op' l r)
    (hop' : op'.isCondition = true) (hop : op.isCondition = true) :
    needsParens e op = .ok (decide (op'.level < op.level)) := by
  simp only [needsParens, hu, BinaryOp.precedence_of_isCondition hop,
    BinaryOp.precedence_of_isCondition hop']
  rfl

/-- As an operand of `AND`, a rendered expression is put in parentheses exactly if it is a
disjunction. -/
theorem needsParens_and (h : e.render f mode = .ok s) :
    needsParens e .and = .ok e.isDisjunction := by
  rw [← isDisjunction_unwrap]
  cases hu : e.unwrap with
  | binary op l r =>
    have hop := isCondition_of_unwrap h hu
    rw [needsParens_of_unwrap hu hop rfl]
    cases op <;> simp_all [BinaryOp.isCondition, BinaryOp.level, isDisjunction]
  | convert source t => exact absurd hu (unwrap_ne_convert e source t)
  | _ =>
    rw [needsParens, hu]
    rfl

/-- As an operand of `OR`, no rendered expression is put in parentheses. -/
theorem needsParens_or (h : e.render f mode = .ok s) : needsParens e .or = .ok false := by
  cases hu : e.unwrap with
  | binary op l r =>
    have hlevel : ¬ op.level < BinaryOp.or.level := Nat.not_lt.2 op.one_le_level
    rw [needsParens_of_unwrap hu (isCondition_of_unwrap h hu) rfl, decide_eq_false hlevel]
  | _ =>
    rw [needsParens, hu]
    rfl

/-- The text of an operand of `AND`. -/
def conjunctText (f : Formatter) (mode : Mode) (e : Expr) : String :=
  if e.isDisjunction then parens (e.text f mode) else e.text f mode

/-- As an operand of `op`, the expression is written as `t`. -/
def IsOperand (f : Formatter) (mode : Mode) (op : BinaryOp) (e : Expr) (t : String) : Prop :=
  ∃ s, e.render f mode = .ok s ∧ operandText e op s = .ok t

theorem isOperand_and (h : e.render f mode = .ok s) :
    IsOperand f mode .and e (e.conjunctText f mode) := by
  refine ⟨s, h, ?_⟩
  rw [operandText, needsParens_and h, conjunctText, text_of_render h]
  rfl

theorem isOperand_or (h : e.render f mode = .ok s) : IsOperand f mode .or e (e.text f mode) := by
  refine ⟨s, h, ?_⟩
  rw [operandText, needsParens_or h, text_of_render h]
  rfl

/-! ## Chains -/

/-- No operator is put in parentheses as an operand of itself. -/
theorem operandText_self {op : BinaryOp} (hop : op.isCondition = true) (l r : Expr) (t : String) :
    operandText (.binary op l r) op t = .ok t := by
  rw [operandText, needsParens_of_unwrap (e := .binary op l r) rfl hop hop,
    decide_eq_false (Nat.lt_irrefl _)]
  rfl

theorem foldl_binary_cons (op : BinaryOp) (e n : Expr) (ns : List Expr) :
    ∃ l r, (n :: ns).foldl (.binary op) e = .binary op l r := by
  induction ns generalizing e n with
  | nil => exact ⟨e, n, rfl⟩
  | cons m ns ih => exact ih (.binary op e n) m

namespace IsOperand

variable {op : BinaryOp} {symbol : String}

/-- Two operands with the operator between them, which are an operand of the same operator again. -/
theorem join {l r : Expr} {tl tr : String} (hop : op.symbol? = some symbol)
    (hl : IsOperand f mode op l tl) (hr : IsOperand f mode op r tr) :
    (Expr.binary op l r).render f mode = .ok (tl ++ (" " ++ symbol ++ " ") ++ tr) ∧
      IsOperand f mode op (.binary op l r) (tl ++ (" " ++ symbol ++ " ") ++ tr) := by
  obtain ⟨sl, hsl, htl⟩ := hl
  obtain ⟨sr, hsr, htr⟩ := hr
  have hsymbol : op.symbol = .ok symbol := by rw [BinaryOp.symbol, hop]
  have hrender : (Expr.binary op l r).render f mode = .ok (tl ++ (" " ++ symbol ++ " ") ++ tr) := by
    simp only [render, hsymbol, hsl, htl, hsr, htr, bind, Except.bind, ← String.append_assoc]
    rfl
  have hcond : op.isCondition = true := by rw [← symbol?_isSome, hop, Option.isSome_some]
  exact ⟨hrender, _, hrender, operandText_self hcond l r _⟩

/-- A chain is written in a row. -/
theorem foldl {t : String} {ns : List Expr} {g : Expr → String} (hop : op.symbol? = some symbol)
    (he : IsOperand f mode op e t) (hns : ∀ n ∈ ns, IsOperand f mode op n (g n)) :
    IsOperand f mode op (ns.foldl (.binary op) e)
      (t ++ String.join (ns.map fun n => " " ++ symbol ++ " " ++ g n)) := by
  induction ns generalizing e t with
  | nil => simpa using he
  | cons n ns ih =>
    have hjoin := (he.join hop (hns n (by simp))).2
    have hrest := ih hjoin fun m hm => hns m (List.mem_cons_of_mem _ hm)
    rw [List.foldl_cons, List.map_cons, String.join_cons]
    simpa only [String.append_assoc] using hrest

/-- A chain of at least two is written alone as it is written as an operand. -/
theorem render_foldl {t : String} {n : Expr} {ns : List Expr} {g : Expr → String}
    (hop : op.symbol? = some symbol) (he : IsOperand f mode op e t)
    (hns : ∀ m ∈ n :: ns, IsOperand f mode op m (g m)) :
    ((n :: ns).foldl (.binary op) e).render f mode =
      .ok ((" " ++ symbol ++ " ").intercalate (t :: (n :: ns).map g)) := by
  have hcond : op.isCondition = true := by rw [← symbol?_isSome, hop, Option.isSome_some]
  obtain ⟨s, hs, htext⟩ := he.foldl hop hns
  obtain ⟨l, r, hroot⟩ := foldl_binary_cons op e n ns
  rw [hroot, operandText_self hcond] at htext
  rw [hs, htext, intercalate_cons_eq_join, List.map_map]
  rfl

end IsOperand

/-- At least two expressions joined by one operator are written in a row. -/
theorem render_joinedBy {op : BinaryOp} {symbol : String} {ns : List Expr} {g : Expr → String}
    (hop : op.symbol? = some symbol) (hlength : 2 ≤ ns.length)
    (hns : ∀ n ∈ ns, IsOperand f mode op n (g n)) :
    ∃ e, joinedBy op ns = .ok e ∧
      e.render f mode = .ok ((" " ++ symbol ++ " ").intercalate (ns.map g)) := by
  obtain _ | ⟨e, _ | ⟨n, ns⟩⟩ := ns
  · simp at hlength
  · simp at hlength
  · refine ⟨_, rfl, ?_⟩
    exact (hns e (by simp)).render_foldl hop fun m hm => hns m (List.mem_cons_of_mem _ hm)

end Expr

namespace Assembler

variable {a : Assembler}

/-! ## Typed queries -/

/-- The predicate of a typed query with the given conditions, which stand in a row behind the
discriminator. -/
def chainedPredicate (a : Assembler) (typeName : String) (ns : List Expr) : String :=
  a.discriminator typeName ++
    String.join (ns.map fun n => " AND " ++ n.conjunctText a.formatter .filter)

theorem conjunct_iff_isOperand {e : Expr} {t : String} :
    a.conjunct e = .ok t ↔ e.IsOperand a.formatter .filter .and t := by
  rw [conjunct, bind_eq_ok]
  rfl

theorem typedPredicate_of_conditions {o : QueryOptions} {ns : List Expr}
    (ho : o.filter = (Expr.conj ns).toOption)
    (h : ∀ n ∈ ns, ∃ s, n.render a.formatter .filter = .ok s) (typeName : String) :
    a.typedPredicate o typeName = .ok (a.chainedPredicate typeName ns) := by
  have hns : ∀ n ∈ ns, n.IsOperand a.formatter .filter .and
      (n.conjunctText a.formatter .filter) := by
    intro n hn
    obtain ⟨s, hs⟩ := h n hn
    exact Expr.isOperand_and hs
  cases ns with
  | nil =>
    rw [typedPredicate_of_none ho, chainedPredicate]
    simp
  | cons e ns =>
    have hchain := (hns e (by simp)).foldl (show BinaryOp.and.symbol? = some "AND" from rfl)
      fun n hn => hns n (List.mem_cons_of_mem _ hn)
    have hand : " " ++ "AND" ++ " " = " AND " := rfl
    rw [hand, ← conjunct_iff_isOperand] at hchain
    rw [typedPredicate_of_filter ho, hchain, chainedPredicate, List.map_cons, String.join_cons]
    simp only [Except.map, String.append_assoc]

/-- Whatever other steps stand between them, the conditions that a builder collects make up the
predicate. -/
theorem typedPredicate_build {steps : List BuilderStep}
    (h : ∀ n ∈ Builder.conditions steps, ∃ s, n.render a.formatter .filter = .ok s)
    (typeName : String) :
    a.typedPredicate (Builder.run {} steps).build typeName =
      .ok (a.chainedPredicate typeName (Builder.conditions steps)) := by
  refine typedPredicate_of_conditions ?_ h typeName
  have hpresent : ∀ n ∈ Builder.conditions steps, n.isMissing = false := by
    intro n hn
    obtain ⟨s, hs⟩ := h n hn
    exact Expr.isMissing_of_render hs
  exact Builder.filter_build hpresent

/-- The text of a typed query with the options of a builder. -/
theorem query_build {steps : List BuilderStep}
    (h : ∀ n ∈ Builder.conditions steps, ∃ s, n.render a.formatter .filter = .ok s)
    {typeName : String} (hne : typeName ≠ "") (parser : SqlParser) (feed : Feed) (sql : String) :
    (a.query parser (Builder.run {} steps).build typeName feed).2.result = .ok sql ↔
      (∃ feed', paged (Builder.run {} steps).build.limit feed = .ok feed') ∧
        ∃ tail, a.IsOrderTail tail (Builder.run {} steps).build.orderBy ∧
          sql = "SELECT * FROM " ++ a.formatter.aliasText ++ " WHERE " ++
            a.chainedPredicate typeName (Builder.conditions steps) ++ tail := by
  rw [query_result_eq_ok, queryText_eq_ok hne (typedPredicate_build h typeName), and_comm]

/-- Conditions alone bring along neither a limit nor a sort, so the query has a text. -/
theorem query_conditions {ns : List Expr} (h : ∀ n ∈ ns, ∃ s, n.render a.formatter .filter = .ok s)
    {typeName : String} (hne : typeName ≠ "") (parser : SqlParser) (feed : Feed) :
    (a.query parser (Builder.run {} (ns.map .filter)).build typeName feed).2.result =
      .ok ("SELECT * FROM " ++ a.formatter.aliasText ++ " WHERE " ++
        a.chainedPredicate typeName ns) := by
  have hconditions : Builder.conditions (ns.map .filter) = ns := by
    simp [Builder.conditions, BuilderStep.conditions, List.flatMap_map]
  have hkeys : Builder.sortKeys (ns.map .filter) = [] := by
    simp [Builder.sortKeys, BuilderStep.sortKeys, List.flatMap_map]
  have hlimits : Builder.limits (ns.map .filter) = [] := by
    simp [Builder.limits, BuilderStep.limits, List.flatMap_map]
  have hbuild : (Builder.run {} (ns.map .filter)).build.limit = .none ∧
      (Builder.run {} (ns.map .filter)).build.orderBy = none := by
    rw [Builder.run_eq, hkeys, hlimits]
    exact ⟨rfl, rfl⟩
  have hquery := query_build (hconditions.symm ▸ h) hne parser feed
  rw [hconditions] at hquery
  rw [hquery]
  refine ⟨⟨feed, by rw [hbuild.1, paged]⟩, "", ?_, by rw [String.append_empty]⟩
  rw [hbuild.2]
  rfl

/-- Expressions joined by a connective are written in a row: as operands of `AND` with parentheses
around disjunctions only, and as operands of `OR` with no parentheses.  The conditions of a typed
query are written in the same way behind the discriminator, be it one or several, whatever other
steps stand between them. -/
theorem chains_flat (a : Assembler) {ns : List Expr}
    (h : ∀ n ∈ ns, ∃ s, n.render a.formatter .filter = .ok s) :
    (2 ≤ ns.length → ∀ mode,
      (∃ e, Expr.conj ns = .ok e ∧
        e.render a.formatter mode =
          .ok (" AND ".intercalate (ns.map (·.conjunctText a.formatter mode)))) ∧
      ∃ e, Expr.disj ns = .ok e ∧
        e.render a.formatter mode = .ok (" OR ".intercalate (ns.map (·.text a.formatter mode)))) ∧
    ∀ typeName, typeName ≠ "" → ∀ parser feed,
      (a.query parser (Builder.run {} (ns.map .filter)).build typeName feed).2.result =
        .ok ("SELECT * FROM " ++ a.formatter.aliasText ++ " WHERE " ++
          a.chainedPredicate typeName ns) ∧
      ∀ steps, Builder.conditions steps = ns → ∀ sql,
        (a.query parser (Builder.run {} steps).build typeName feed).2.result = .ok sql ↔
          (∃ feed', paged (Builder.run {} steps).build.limit feed = .ok feed') ∧
            ∃ tail, a.IsOrderTail tail (Builder.run {} steps).build.orderBy ∧
              sql = "SELECT * FROM " ++ a.formatter.aliasText ++ " WHERE " ++
                a.chainedPredicate typeName ns ++ tail := by
  refine ⟨fun hlength mode => ?_,
    fun typeName hne parser feed => ⟨query_conditions h hne parser feed, ?_⟩⟩
  · -- the mode does not decide whether there is a text
    have hrender : ∀ n ∈ ns, ∃ s, n.render a.formatter mode = .ok s := by
      intro n hn
      have hdefect := (Expr.render_failsAs n).exists_ok_iff.1 (h n hn)
      exact (Expr.render_failsAs n).exists_ok_iff.2 hdefect
    constructor
    · refine Expr.render_joinedBy (show BinaryOp.and.symbol? = some "AND" from rfl) hlength
        fun n hn => ?_
      obtain ⟨s, hs⟩ := hrender n hn
      exact Expr.isOperand_and hs
    · refine Expr.render_joinedBy (show BinaryOp.or.symbol? = some "OR" from rfl) hlength
        fun n hn => ?_
      obtain ⟨s, hs⟩ := hrender n hn
      exact Expr.isOperand_or hs
  · rintro steps rfl
    exact query_build h hne parser feed

/-- A disjunction and a comparison: only the disjunction is put in parentheses, alone in its query
as well. -/
theorem chains_flat_ownerOrPublic :
    (∃ e, Expr.conj [.convert .ownerOrPublic none, .priceThree] = .ok e ∧
        e.render .default .search = .ok "(c.Owner = 1 OR c.Public = 1) AND c.Price = 3") ∧
      (∃ e, Expr.disj [.convert .ownerOrPublic none, .priceThree] = .ok e ∧
        e.render .default .filter = .ok "c.Owner = 1 OR c.Public = 1 OR c.Price = 3") ∧
      (plain.query (fun _ => .select)
          (Builder.run {} [.filter (.convert .ownerOrPublic none), .filter .priceThree]).build
            "Product" {}).2.result =
        .ok
          "SELECT * FROM c WHERE c._t = 'PRODUCT' AND (c.Owner = 1 OR c.Public = 1) AND c.Price = 3" ∧
      (plain.query (fun _ => .select)
          (Builder.run {} [.top (.int 5), .filter .ownerOrPublic,
            .orderBy (.prop "Price") true]).build "Product" {}).2.result =
        .ok
          "SELECT * FROM c WHERE c._t = 'PRODUCT' AND (c.Owner = 1 OR c.Public = 1) ORDER BY c.Price DESC" := by
  have hone : ∀ n ∈ [Expr.ownerOrPublic], ∃ s, n.render plain.formatter .filter = .ok s := by
    intro n hn
    rw [List.mem_singleton.1 hn]
    exact ⟨_, rfl⟩
  have htwo : ∀ n ∈ [Expr.ownerOrPublic.convert none, .priceThree], ∃ s,
      n.render plain.formatter .filter = .ok s := by
    simp only [List.mem_cons, List.not_mem_nil, or_false]
    rintro n (rfl | rfl)
    · exact ⟨_, rfl⟩
    · exact ⟨_, rfl⟩
  obtain ⟨hjoined, htyped⟩ := chains_flat plain htwo
  have hmixed := ((chains_flat plain hone).2 "Product" (by decide) (fun _ => .select) {}).2
    [.top (.int 5), .filter .ownerOrPublic, .orderBy (.prop "Price") true] rfl
  refine ⟨(hjoined (by decide) .search).1, (hjoined (by decide) .filter).2,
    (htyped "Product" (by decide) (fun _ => .select) {}).1,
    (hmixed _).2 ⟨⟨_, rfl⟩, _, ⟨_, rfl, rfl⟩, rfl⟩⟩

end Assembler

end DocQuery
