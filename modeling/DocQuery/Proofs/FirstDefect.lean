import DocQuery.Proofs.Readable
import DocQuery.Render.Visit

/-!
# The first defect

Rendering fails exactly if some part of the expression is malformed, and the first malformed part
decides the error.

* `Expr.nodes`: the parts of an expression, each before its own parts.
* `Expr.AllNodes Q e`: every part of `e` satisfies `Q`; a rule for each form passes it on to the
  parts.
* `Expr.Malformed`: what is wrong with an expression itself, whatever its parts are.
* `FailsAs r d`: the computation `r` gives a value if `d` is no error, and fails with the error `d`
  otherwise.  There is a rule for computations in a row.
* `Expr.render_failsAs`: rendering fails as the first defect says that it meets on its way.
* `Expr.firstDefect?_eq`: this is the first defect among all parts, also among those that rendering
  does not look at.
-/

namespace DocQuery

/-! ## Computations and their errors -/

theorem findSome?_cons_eq_or {α β : Type} (d : α → Option β) (x : α) (xs : List α) :
    (x :: xs).findSome? d = (d x).or (xs.findSome? d) := by
  rw [List.findSome?_cons]
  cases d x <;> rfl

/-- The computation gives a value if there is no error, and fails with the error if there is one. -/
def FailsAs {ε α : Type} (r : Except ε α) : Option ε → Prop
  | none => ∃ a, r = .ok a
  | some e => r = .error e

namespace FailsAs

variable {ε α β : Type}

theorem ok (a : α) : FailsAs (.ok a : Except ε α) none := ⟨a, rfl⟩

/-- Of two computations in a row, the first one that fails decides the error. -/
theorem bind {r : Except ε α} {k : α → Except ε β} {d d' : Option ε} (h : FailsAs r d)
    (hk : ∀ a, r = .ok a → FailsAs (k a) d') : FailsAs (r >>= k) (d.or d') := by
  cases d with
  | none =>
    obtain ⟨a, rfl⟩ := h
    rw [Option.none_or]
    exact hk a rfl
  | some e =>
    have hr : r = .error e := h
    rw [hr]
    rfl

theorem map {r : Except ε α} {d : Option ε} (h : FailsAs r d) (g : α → β) :
    FailsAs (r >>= fun a => pure (g a)) d := by
  rw [← Option.or_none (o := d)]
  exact h.bind fun a _ => ok (g a)

theorem mapError {ε' : Type} {r : Except ε α} {d : Option ε} (h : FailsAs r d) (g : ε → ε') :
    FailsAs (r.mapError g) (d.map g) := by
  cases d with
  | none =>
    obtain ⟨a, rfl⟩ := h
    exact ok a
  | some e =>
    have hr : r = .error e := h
    rw [hr]
    rfl

/-- Of several computations in a row, the first one that fails decides the error. -/
theorem mapM {g : α → Except ε β} {d : α → Option ε} (h : ∀ x, FailsAs (g x) (d x)) (xs : List α) :
    FailsAs (xs.mapM g) (xs.findSome? d) := by
  induction xs with
  | nil => exact ok []
  | cons x xs ih =>
    rw [List.mapM_cons, findSome?_cons_eq_or]
    exact (h x).bind fun y _ => ih.map _

/-- There is a value exactly if there is no error. -/
theorem exists_ok_iff {r : Except ε α} {d : Option ε} (h : FailsAs r d) :
    (∃ a, r = .ok a) ↔ d = none := by
  cases d with
  | none => exact ⟨fun _ => rfl, fun _ => h⟩
  | some e =>
    have hr : r = .error e := h
    simp [hr]

theorem eq_error_iff {r : Except ε α} {d : Option ε} (h : FailsAs r d) (e : ε) :
    r = .error e ↔ d = some e := by
  cases d with
  | none =>
    obtain ⟨a, rfl⟩ := h
    simp
  | some e' =>
    have hr : r = .error e' := h
    simp [hr]

end FailsAs

namespace Expr

/-! ## Parts -/

mutual

/-- The expression and its parts, each before its own parts: the left operand before the right one,
and a source before the arguments or the body.  A source that may be missing is no part if it is. -/
def nodes : Expr → List Expr
  | .constant c => [.constant c]
  | .convert source t => .convert source t :: source.nodes
  | .binary op left right => .binary op left right :: (left.nodes ++ right.nodes)
  | .unary op operand => .unary op operand :: operand.nodes
  | .access how name source =>
    .access how name source :: (if source.isMissing then [] else source.nodes)
  | .rangeVar name entity => [.rangeVar name entity]
  | .quantifier kind source body var =>
    .quantifier kind source body var :: (source.nodes ++ body.nodes)
  | .call name args source kind =>
    .call name args source kind ::
      ((if source.isMissing then [] else source.nodes) ++ nodesAll args)
  | .namedArg name value => .namedArg name value :: value.nodes
  | .paramAlias name => [.paramAlias name]
  | .searchTerm text => [.searchTerm text]
  | .foreign value => [.foreign value]

/-- The expressions of a list and their parts. -/
def nodesAll : List Expr → List Expr
  | [] => []
  | e :: es => e.nodes ++ nodesAll es

end

theorem mem_nodesAll {x : Expr} {es : List Expr} : x ∈ nodesAll es ↔ ∃ e ∈ es, x ∈ e.nodes := by
  induction es with
  | nil => simp [nodesAll]
  | cons e es ih => simp [nodesAll, ih]

-- the source is missing, so it is no part; an argument is one even then
example : (func "now" [it, .missing]).nodes = [func "now" [it, .missing], it, .missing] := by cbv

theorem nodesAll_append (es es' : List Expr) :
    nodesAll (es ++ es') = nodesAll es ++ nodesAll es' := by
  induction es with
  | nil => rfl
  | cons e es ih => rw [List.cons_append, nodesAll, nodesAll, ih, List.append_assoc]

theorem mem_nodes_self (e : Expr) : e ∈ e.nodes := by
  cases e <;> simp [nodes]

/-- Every part of the expression satisfies `Q`. -/
def AllNodes (Q : Expr → Prop) (e : Expr) : Prop := ∀ x ∈ e.nodes, Q x

namespace AllNodes

variable {Q : Expr → Prop} {source body : Expr}

theorem self {e : Expr} (h : e.AllNodes Q) : Q e := h e (mem_nodes_self e)

theorem of_convert {t : Option String} (h : AllNodes Q (.convert source t)) : AllNodes Q source :=
  fun x hx => h x (by simp [nodes, hx])

theorem of_binary {op : BinaryOp} {l r : Expr} (h : AllNodes Q (.binary op l r)) :
    AllNodes Q l ∧ AllNodes Q r :=
  ⟨fun x hx => h x (by simp [nodes, hx]), fun x hx => h x (by simp [nodes, hx])⟩

theorem of_unary {op : UnaryOp} {e : Expr} (h : AllNodes Q (.unary op e)) : AllNodes Q e :=
  fun x hx => h x (by simp [nodes, hx])

/-- A source that is missing is no part, so it counts by itself. -/
theorem of_source (hmissing : Q .missing) (h : source.isMissing = false → AllNodes Q source) :
    AllNodes Q source := by
  cases hs : source.isMissing with
  | true =>
    intro x hx
    obtain rfl : x = .missing := by simpa [eq_missing_of_isMissing hs, nodes] using hx
    exact hmissing
  | false => exact h hs

theorem of_access {how : Access} {name : String} (hmissing : Q .missing)
    (h : AllNodes Q (.access how name source)) : AllNodes Q source :=
  of_source hmissing fun hs x hx => h x (by simp [nodes, hs, hx])

theorem of_quantifier {kind : QuantifierKind} {var : Option String}
    (h : AllNodes Q (.quantifier kind source body var)) : AllNodes Q source ∧ AllNodes Q body :=
  ⟨fun x hx => h x (by simp [nodes, hx]), fun x hx => h x (by simp [nodes, hx])⟩

theorem of_call {name : String} {args : List Expr} {kind : ResultKind} (hmissing : Q .missing)
    (h : AllNodes Q (.call name args source kind)) :
    AllNodes Q source ∧ ∀ a ∈ args, AllNodes Q a := by
  refine ⟨of_source hmissing fun hs x hx => h x (by simp [nodes, hs, hx]), fun a ha x hx => ?_⟩
  have hmem : x ∈ nodesAll args := mem_nodesAll.2 ⟨a, ha, hx⟩
  exact h x (by simp [nodes, hmem])

theorem of_namedArg {name : String} {value : Expr} (h : AllNodes Q (.namedArg name value)) :
    AllNodes Q value :=
  fun x hx => h x (by simp [nodes, hx])

end AllNodes

/-! ## Malformed parts -/

/-- What is wrong with an expression itself, and the error that tells it. -/
inductive Malformed : Expr → RenderError → Prop where
  /-- It is a value and no expression. -/
  | foreign (v : Value) : Malformed (.foreign v) (.foreignNode v.kindName)
  /-- The operator is neither a connective nor a comparison. -/
  | binary {op : BinaryOp} (l r : Expr) :
      op.isCondition = false → Malformed (.binary op l r) (.noSymbol op.name)
  /-- The operator is neither a sign nor a negation. -/
  | unary {op : UnaryOp} (e : Expr) :
      op ≠ .negate → op ≠ .not → Malformed (.unary op e) (.noSymbol op.name)
  /-- An `any` without a range variable has a body that is no constant. -/
  | body (source : Expr) {body : Expr} : body.isConstant = false →
      Malformed (.quantifier .any source body none) .bodyNotConstant
  /-- Any other quantifier has no range variable. -/
  | noVariable {kind : QuantifierKind} (source body : Expr) : kind ≠ .any →
      Malformed (.quantifier kind source body none) (.noRangeVariable kind.name)
  /-- The range variable is blank. -/
  | blankVariable (kind : QuantifierKind) (source body : Expr) {v : String} :
      Text.isBlankText v = true →
        Malformed (.quantifier kind source body (some v)) (.noRangeVariable kind.name)

theorem symbol?_isSome (op : BinaryOp) : op.symbol?.isSome = op.isCondition := by
  cases op <;> rfl

/-- The defect of an expression is what is wrong with it. -/
theorem defect?_eq_some {e : Expr} {err : RenderError} :
    e.defect? = some err ↔ Malformed e err := by
  constructor
  · intro h
    cases e with
    | foreign v =>
      cases h
      exact .foreign v
    | binary op l r =>
      simp only [defect?, symbol?_isSome, Option.ite_none_left_eq_some, Bool.not_eq_true,
        Option.some.injEq] at h
      exact h.2 ▸ .binary l r h.1
    | unary op e =>
      cases op with
      | other n =>
        cases h
        exact @Malformed.unary (.other n) e (by simp) (by simp)
      | _ => simp [defect?] at h
    | quantifier kind source body var =>
      cases var with
      | some v =>
        simp only [defect?, Option.all_some, Option.ite_none_right_eq_some, Option.some.injEq] at h
        exact h.2 ▸ .blankVariable kind source body h.1
      | none =>
        cases kind with
        | any =>
          simp only [defect?, Option.ite_none_left_eq_some, Bool.not_eq_true,
            Option.some.injEq] at h
          exact h.2 ▸ .body source h.1
        | all =>
          cases h
          exact .noVariable source body (by simp)
        | other n =>
          cases h
          exact @Malformed.noVariable (.other n) source body (by simp)
    | _ => simp [defect?] at h
  · intro h
    cases h with
    | foreign v => rfl
    | binary l r hop => simp [defect?, symbol?_isSome, hop]
    | @unary op e hneg hnot =>
      cases op with
      | negate => exact absurd rfl hneg
      | not => exact absurd rfl hnot
      | other n => rfl
    | body source hbody => simp [defect?, hbody]
    | @noVariable kind source body hkind =>
      cases kind with
      | any => exact absurd rfl hkind
      | _ => rfl
    | blankVariable kind source body hv => simp [defect?, hv]

theorem defect?_eq_none {e : Expr} : e.defect? = none ↔ ∀ err, ¬ Malformed e err := by
  rw [Option.eq_none_iff_forall_ne_some]
  exact forall_congr' fun err => not_congr defect?_eq_some

/-! ## What rendering looks at -/

/-- An `any` without a variable has rules of its own; all other quantifiers follow one. -/
theorem bareAny_or (kind : QuantifierKind) (var : Option String) :
    kind = .any ∧ var = none ∨ (kind = .any → var = none → False) := by
  by_cases hany : kind = .any ∧ var = none
  · exact .inl hany
  · exact .inr fun hkind hvar => hany ⟨hkind, hvar⟩

theorem findSome?_nodes_of_isConstant {e : Expr} (h : e.isConstant = true) :
    e.nodes.findSome? defect? = none := by
  cases e with
  | constant c => rfl
  | _ => simp [isConstant] at h

/-- Leaving out the body of an `any` without a range variable does not change the first defect: the
body is a constant, or the quantifier itself is malformed. -/
theorem firstDefect?_eq (e : Expr) : e.firstDefect? = e.nodes.findSome? defect? := by
  unfold firstDefect?
  induction e with
  | convert source t ih => simp only [visited, nodes, findSome?_cons_eq_or, ih]
  | binary op l r ihl ihr =>
    simp only [visited, nodes, findSome?_cons_eq_or, List.findSome?_append, ihl, ihr]
  | unary op e ih => simp only [visited, nodes, findSome?_cons_eq_or, ih]
  | access how name source ih =>
    by_cases hs : source.isMissing = true
    · simp [visited, nodes, hs]
    · simp [visited, nodes, hs, findSome?_cons_eq_or, ih]
  | quantifier kind source body var ihs ihb =>
    rcases bareAny_or kind var with ⟨rfl, rfl⟩ | hne
    · simp only [visited, nodes, findSome?_cons_eq_or, List.findSome?_append, ihs]
      by_cases hbody : body.isConstant = true
      · rw [findSome?_nodes_of_isConstant hbody, Option.or_none]
      · simp [defect?, hbody]
    · have hvisited : visited (.quantifier kind source body var) =
          .quantifier kind source body var :: (source.visited ++ body.visited) := by
        rw [visited]
        exact hne
      simp only [hvisited, nodes, findSome?_cons_eq_or, List.findSome?_append, ihs, ihb]
  | call name args source kind ihargs ihs =>
    have hargs : (visitedAll args).findSome? defect? = (nodesAll args).findSome? defect? := by
      induction args with
      | nil => rfl
      | cons a args ih =>
        simp only [visitedAll, nodesAll, List.findSome?_append, ihargs a (by simp),
          ih (fun b hb => ihargs b (List.mem_cons_of_mem _ hb))]
    by_cases hs : source.isMissing = true
    · simp [visited, nodes, hs, findSome?_cons_eq_or, hargs]
    · simp [visited, nodes, hs, findSome?_cons_eq_or, List.findSome?_append, ihs, hargs]
  | namedArg name value ih => simp only [visited, nodes, findSome?_cons_eq_or, ih]
  | _ => rfl

/-! ## Rendering -/

section Rendering

variable {f : Formatter} {mode : Mode}

theorem symbol_failsAs (op : BinaryOp) (l r : Expr) :
    FailsAs op.symbol (Expr.binary op l r).defect? := by
  rw [BinaryOp.symbol, defect?]
  cases op.symbol? with
  | none => rfl
  | some s => exact .ok s

theorem token_failsAs (op : UnaryOp) (e : Expr) :
    FailsAs (op.token mode) (Expr.unary op e).defect? := by
  cases op with
  | other n => rfl
  | _ => exact .ok _

theorem boundName_failsAs {kind : QuantifierKind} {var : Option String} (source body : Expr)
    (hne : kind = .any → var = none → False) :
    FailsAs (boundName kind var) (Expr.quantifier kind source body var).defect? := by
  have hdefect : (Expr.quantifier kind source body var).defect? =
      if var.all Text.isBlankText then some (.noRangeVariable kind.name) else none := by
    rw [defect?]
    exact hne
  rw [hdefect]
  cases var with
  | none => rfl
  | some v =>
    by_cases hv : Text.isBlankText v = true
    · simp [boundName, hv, FailsAs]
    · simp [boundName, hv, FailsAs]

theorem precedence_of_symbol {op : BinaryOp} {symbol : String} (h : op.symbol = .ok symbol) :
    ∃ n, op.precedence = .ok n := by
  have hsymbol : op.symbol?.isSome = true := by
    rw [BinaryOp.symbol] at h
    cases hs : op.symbol? with
    | none => simp [hs] at h
    | some s => rfl
  obtain ⟨n, hn⟩ := Option.isSome_iff_exists.1 (BinaryOp.rank?_isSome_of_symbol? hsymbol)
  exact ⟨n, by rw [BinaryOp.precedence, hn]⟩

/-- A rendered expression can be an operand of a rendered operator: whatever operator it is made
with has a symbol, and so it has a precedence. -/
theorem operandText_failsAs {e : Expr} {op : BinaryOp} {s symbol : String}
    (hs : e.render f mode = .ok s) (hop : op.symbol = .ok symbol) (t : String) :
    FailsAs (operandText e op t) none := by
  have hwrap : ∃ wrap, needsParens e op = .ok wrap := by
    rw [← render_unwrap] at hs
    rw [needsParens]
    cases hu : e.unwrap with
    | binary op' l r =>
      rw [hu, render] at hs
      cases hop' : op'.symbol with
      | error err => simp [hop', bind, Except.bind] at hs
      | ok symbol' =>
        obtain ⟨n, hn⟩ := precedence_of_symbol hop
        obtain ⟨n', hn'⟩ := precedence_of_symbol hop'
        exact ⟨decide (n' < n), by simp only [hn, hn', bind, Except.bind]; rfl⟩
    | _ => exact ⟨false, rfl⟩
  obtain ⟨wrap, hwrap⟩ := hwrap
  rw [operandText, hwrap]
  exact .ok _

theorem renderAll_failsAs {es : List Expr}
    (h : ∀ e ∈ es, FailsAs (e.render f mode) (e.visited.findSome? defect?)) :
    FailsAs (renderAll f mode es) ((visitedAll es).findSome? defect?) := by
  induction es with
  | nil => exact .ok []
  | cons e es ih =>
    rw [renderAll, visitedAll, List.findSome?_append]
    refine (h e (by simp)).bind fun s _ => ?_
    exact (ih fun e he => h e (List.mem_cons_of_mem _ he)).map _

/-- Rendering succeeds if it meets no defect, and fails with the first defect that it meets. -/
theorem render_failsAs (e : Expr) : FailsAs (e.render f mode) e.firstDefect? := by
  unfold firstDefect?
  induction e with
  | constant c => exact .ok _
  | convert source t ih =>
    rw [render, visited, findSome?_cons_eq_or]
    exact ih
  | binary op l r ihl ihr =>
    rw [render, visited, findSome?_cons_eq_or, List.findSome?_append]
    refine (symbol_failsAs op l r).bind fun symbol hop => ihl.bind fun sl hsl => ?_
    refine (operandText_failsAs hsl hop sl).bind fun tl _ => ?_
    rw [← Option.or_none (o := r.visited.findSome? defect?)]
    refine ihr.bind fun sr hsr => ?_
    exact (operandText_failsAs hsr hop sr).map _
  | unary op e ih =>
    rw [render, visited, findSome?_cons_eq_or]
    exact (token_failsAs op e).bind fun token _ => ih.map _
  | access how name source ih =>
    rw [render, visited, findSome?_cons_eq_or]
    by_cases hs : source.isMissing = true
    · rw [if_pos hs, if_pos hs]
      exact .ok _
    · rw [if_neg hs, if_neg hs]
      exact ih.map _
  | rangeVar name entity => exact .ok _
  | quantifier kind source body var ihs ihb =>
    rcases bareAny_or kind var with ⟨rfl, rfl⟩ | hne
    · rw [render, visited, findSome?_cons_eq_or, defect?]
      by_cases hbody : body.isConstant = true
      · rw [if_pos hbody, if_pos hbody]
        exact ihs.map _
      · rw [if_neg hbody, if_neg hbody]
        rfl
    · rw [render, visited, findSome?_cons_eq_or, List.findSome?_append]
      · refine (boundName_failsAs source body hne).bind fun v _ => ihs.bind fun s _ => ?_
        exact ihb.map _
      · exact hne
      · exact hne
  | call name args source kind ihargs ihs =>
    rw [render, visited, findSome?_cons_eq_or, List.findSome?_append]
    have hargs := renderAll_failsAs ihargs
    by_cases hs : source.isMissing = true
    · rw [if_pos hs, if_pos hs]
      exact hargs.map _
    · rw [if_neg hs, if_neg hs]
      have htarget : FailsAs ((source.render f mode).map (f.access · name))
          (source.visited.findSome? defect?) := ihs.map _
      exact htarget.bind fun target _ => hargs.map _
  | namedArg name value ih =>
    rw [render, visited, findSome?_cons_eq_or]
    exact ih.map _
  | paramAlias name => exact .ok _
  | searchTerm text => exact .ok _
  | foreign v => rfl

end Rendering

/-- Rendering succeeds exactly if no part of the expression is malformed, and otherwise fails with
the error of the first malformed part.  Neither the formatter nor the mode has a say in this, and
the precedence of an operator is never missing. -/
theorem render_first_malformed (f : Formatter) (mode : Mode) (e : Expr) :
    ((∃ s, e.render f mode = .ok s) ↔ ∀ x ∈ e.nodes, ∀ err, ¬ Malformed x err) ∧
      (∀ err, e.render f mode = .error err ↔
        ∃ before x after, e.nodes = before ++ x :: after ∧
          (∀ y ∈ before, ∀ err', ¬ Malformed y err') ∧ Malformed x err) ∧
      (∀ f' mode', ((∃ s, e.render f mode = .ok s) ↔ ∃ s, e.render f' mode' = .ok s) ∧
        ∀ err, e.render f mode = .error err ↔ e.render f' mode' = .error err) ∧
      ∀ op, e.render f mode ≠ .error (.noPrecedence op) := by
  have hrender : ∀ f mode, FailsAs (e.render f mode) (e.nodes.findSome? defect?) := by
    intro f mode
    rw [← firstDefect?_eq]
    exact render_failsAs e
  have herror : ∀ err, e.render f mode = .error err ↔
      ∃ before x after, e.nodes = before ++ x :: after ∧
        (∀ y ∈ before, ∀ err', ¬ Malformed y err') ∧ Malformed x err := by
    intro err
    rw [(hrender f mode).eq_error_iff, List.findSome?_eq_some_iff]
    simp only [defect?_eq_some, defect?_eq_none, and_comm]
  refine ⟨?_, herror, fun f' mode' => ⟨?_, fun err => ?_⟩, fun op hop => ?_⟩
  · rw [(hrender f mode).exists_ok_iff, List.findSome?_eq_none_iff]
    simp only [defect?_eq_none]
  · rw [(hrender f mode).exists_ok_iff, (hrender f' mode').exists_ok_iff]
  · rw [(hrender f mode).eq_error_iff, (hrender f' mode').eq_error_iff]
  · obtain ⟨_, _, _, _, _, hx⟩ := (herror _).1 hop
    cases hx

-- of three defects, the unknown operator comes first: the argument stands before the missing one
-- and the right operand
example : (Expr.binary .and (.func "f" [.unary (.other "abs") .it, .missing])
    (.binary .mod .it .it)).render .default .filter = .error (.noSymbol "abs") := rfl

end Expr

end DocQuery
