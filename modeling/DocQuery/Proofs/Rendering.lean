import DocQuery.Proofs.Results
import Mathlib.Data.List.Forall2

/-!
# What a rendered text is made of

For each form of expression with parts, the texts that it is rendered as, in terms of the texts of
its parts; and for the clauses of a query, the same in terms of the texts of its expressions.

* `Expr.Rendered f mode e s`: the same as rules, one for each form, for inductions over a rendered
  text.
* `Expr.Everywhere Q e`: what rendering `e` looks at satisfies `Q`; a rule for each form passes it
  on to the parts.
* `Expr.ownTexts`: the texts that an expression brings along, its parts aside; `Expr.TextsSatisfy`
  speaks of all of them.
-/

namespace DocQuery

theorem exists_of_mem_forall₂ {α β : Type} {R : α → β → Prop} {xs : List α} {ys : List β}
    (h : List.Forall₂ R xs ys) {x : α} (hx : x ∈ xs) : ∃ y ∈ ys, R x y := by
  induction h with
  | nil => simp at hx
  | @cons x' y xs ys hxy _ ih =>
    rcases List.mem_cons.1 hx with rfl | hx
    · exact ⟨y, by simp, hxy⟩
    · obtain ⟨y', hy', hxy'⟩ := ih hx
      exact ⟨y', List.mem_cons_of_mem _ hy', hxy'⟩

/-- Whatever holds of the second members of the pairs holds of the whole second list. -/
theorem forall_mem_of_zip {α β : Type} {xs : List α} {ys : List β} (hlength : xs.length = ys.length)
    {Q : β → Prop} (h : ∀ p ∈ xs.zip ys, Q p.2) : ∀ y ∈ ys, Q y := by
  intro y hy
  rw [← List.map_snd_zip (Nat.le_of_eq hlength.symm)] at hy
  obtain ⟨p, hp, rfl⟩ := List.mem_map.1 hy
  exact h p hp

/-- Whatever holds of the first members of the pairs holds of the whole first list. -/
theorem forall_mem_of_zip_left {α β : Type} {xs : List α} {ys : List β}
    (hlength : xs.length = ys.length) {Q : α → Prop} (h : ∀ p ∈ xs.zip ys, Q p.1) :
    ∀ x ∈ xs, Q x := by
  intro x hx
  rw [← List.map_fst_zip (Nat.le_of_eq hlength)] at hx
  obtain ⟨p, hp, rfl⟩ := List.mem_map.1 hx
  exact h p hp

namespace Expr

variable {f : Formatter} {mode : Mode} {s : String}

theorem render_binary_eq_ok {op : BinaryOp} {l r : Expr} :
    (Expr.binary op l r).render f mode = .ok s ↔
      ∃ symbol sl wl sr wr, op.symbol = .ok symbol ∧ l.render f mode = .ok sl ∧
        needsParens l op = .ok wl ∧ r.render f mode = .ok sr ∧ needsParens r op = .ok wr ∧
        s = (if wl then parens sl else sl) ++ " " ++ symbol ++ " " ++
          (if wr then parens sr else sr) := by
  rw [render]
  simp only [bind_eq_ok, operandText]
  constructor
  · rintro ⟨symbol, hop, sl, hsl, _, ⟨wl, hwl, htl⟩, sr, hsr, _, ⟨wr, hwr, htr⟩, hs⟩
    cases htl
    cases htr
    cases hs
    exact ⟨symbol, sl, wl, sr, wr, hop, hsl, hwl, hsr, hwr, rfl⟩
  · rintro ⟨symbol, sl, wl, sr, wr, hop, hsl, hwl, hsr, hwr, rfl⟩
    exact ⟨symbol, hop, sl, hsl, _, ⟨wl, hwl, rfl⟩, sr, hsr, _, ⟨wr, hwr, rfl⟩, rfl⟩

theorem render_unary_eq_ok {op : UnaryOp} {e : Expr} :
    (Expr.unary op e).render f mode = .ok s ↔
      ∃ token t, op.token mode = .ok token ∧ e.render f mode = .ok t ∧
        s = if e.isAtomic then token ++ " " ++ t else token ++ parens t := by
  rw [render]
  simp only [bind_eq_ok]
  constructor
  · rintro ⟨token, hop, t, ht, hs⟩
    cases hs
    exact ⟨token, t, hop, ht, rfl⟩
  · rintro ⟨token, t, hop, ht, rfl⟩
    exact ⟨token, hop, t, ht, rfl⟩

/-- The text of a name that is reached from a source; a missing source is the queried document. -/
theorem render_access_eq_ok {how : Access} {name : String} {source : Expr} :
    (Expr.access how name source).render f mode = .ok s ↔
      source.isMissing = true ∧ s = f.field name ∨
        source.isMissing = false ∧ ∃ t, source.render f mode = .ok t ∧ s = f.access t name := by
  rw [render]
  cases hs : source.isMissing with
  | true =>
    simp only [if_true, bind_eq_ok, true_and, Bool.true_eq_false, false_and, or_false]
    constructor
    · rintro ⟨t, ht, hs⟩
      cases ht
      cases hs
      rfl
    · rintro rfl
      exact ⟨"", rfl, rfl⟩
  | false =>
    simp only [Bool.false_eq_true, if_false, bind_eq_ok, false_and, true_and, false_or]
    constructor
    · rintro ⟨t, ht, hs⟩
      cases hs
      exact ⟨t, ht, rfl⟩
    · rintro ⟨t, ht, rfl⟩
      exact ⟨t, ht, rfl⟩

theorem render_any_eq_ok {source body : Expr} :
    (Expr.quantifier .any source body none).render f mode = .ok s ↔
      body.isConstant = true ∧ ∃ t, source.render f mode = .ok t ∧ s = t ++ "/any()" := by
  rw [render]
  cases hbody : body.isConstant with
  | true =>
    simp only [if_true, bind_eq_ok, true_and]
    constructor
    · rintro ⟨t, ht, hs⟩
      cases hs
      exact ⟨t, ht, rfl⟩
    · rintro ⟨t, ht, rfl⟩
      exact ⟨t, ht, rfl⟩
  | false => simp

theorem boundName_eq_ok {kind : QuantifierKind} {var : Option String} {v : String} :
    boundName kind var = .ok v ↔ var = some v ∧ Text.isBlankText v = false := by
  cases var with
  | none => simp [boundName]
  | some w =>
    rw [boundName]
    cases hw : Text.isBlankText w with
    | true =>
      simp only [if_true, reduceCtorEq, Option.some.injEq, false_iff]
      rintro ⟨rfl, hv⟩
      simp [hw] at hv
    | false =>
      simp only [Bool.false_eq_true, if_false, Except.ok.injEq, Option.some.injEq]
      constructor
      · rintro rfl
        exact ⟨rfl, hw⟩
      · exact And.left

/-- The text of a quantifier, but for an `any` without a range variable. -/
theorem render_quantifier_eq_ok {kind : QuantifierKind} {source body : Expr} {var : Option String}
    (h : ¬ (kind = .any ∧ var = none)) :
    (Expr.quantifier kind source body var).render f mode = .ok s ↔
      ∃ v t b, var = some v ∧ Text.isBlankText v = false ∧ source.render f mode = .ok t ∧
        body.render f mode = .ok b ∧ s = t ++ "/" ++ kind.name ++ "(" ++ v ++ ":" ++ b ++ ")" := by
  rw [render]
  · simp only [bind_eq_ok, boundName_eq_ok]
    constructor
    · rintro ⟨v, ⟨hvar, hv⟩, t, ht, b, hb, hs⟩
      cases hs
      exact ⟨v, t, b, hvar, hv, ht, hb, rfl⟩
    · rintro ⟨v, t, b, hvar, hv, ht, hb, rfl⟩
      exact ⟨v, ⟨hvar, hv⟩, t, ht, b, hb, rfl⟩
  · exact fun hkind hvar => h ⟨hkind, hvar⟩

/-- The text of a call: a name, or a name that is reached from a receiver, and the arguments. -/
theorem render_call_eq_ok {name : String} {args : List Expr} {source : Expr} {kind : ResultKind} :
    (Expr.call name args source kind).render f mode = .ok s ↔
      ∃ target texts,
        (source.isMissing = true ∧ target = name ∨
          source.isMissing = false ∧ ∃ t, source.render f mode = .ok t ∧ target = f.access t name) ∧
        renderAll f mode args = .ok texts ∧ s = target ++ "(" ++ ",".intercalate texts ++ ")" := by
  rw [render]
  cases hs : source.isMissing with
  | true =>
    simp only [if_true, bind_eq_ok, true_and, Bool.true_eq_false, false_and, or_false]
    constructor
    · rintro ⟨target, ht, texts, htexts, hs⟩
      cases ht
      cases hs
      exact ⟨_, texts, rfl, htexts, rfl⟩
    · rintro ⟨_, texts, rfl, htexts, rfl⟩
      exact ⟨_, rfl, texts, htexts, rfl⟩
  | false =>
    simp only [Bool.false_eq_true, if_false, bind_eq_ok, map_eq_ok, false_and, true_and, false_or]
    constructor
    · rintro ⟨target, ⟨t, ht, rfl⟩, texts, htexts, hs⟩
      cases hs
      exact ⟨_, texts, ⟨t, ht, rfl⟩, htexts, rfl⟩
    · rintro ⟨_, texts, ⟨t, ht, rfl⟩, htexts, rfl⟩
      exact ⟨_, ⟨t, ht, rfl⟩, texts, htexts, rfl⟩

theorem render_namedArg_eq_ok {name : String} {value : Expr} :
    (Expr.namedArg name value).render f mode = .ok s ↔
      ∃ t, value.render f mode = .ok t ∧ s = name ++ "=" ++ t := by
  rw [render, bind_eq_ok]
  constructor
  · rintro ⟨t, ht, hs⟩
    cases hs
    exact ⟨t, ht, rfl⟩
  · rintro ⟨t, ht, rfl⟩
    exact ⟨t, ht, rfl⟩

/-- Expressions are rendered place by place. -/
theorem renderAll_eq_ok {es : List Expr} {texts : List String} :
    renderAll f mode es = .ok texts ↔
      List.Forall₂ (fun e t => e.render f mode = .ok t) es texts := by
  induction es generalizing texts with
  | nil =>
    rw [renderAll, List.forall₂_nil_left_iff]
    simp [eq_comm]
  | cons e es ih =>
    rw [renderAll]
    simp only [bind_eq_ok, ih, List.forall₂_cons_left_iff]
    constructor
    · rintro ⟨t, ht, ts, hts, hs⟩
      cases hs
      exact ⟨t, ts, ht, hts, rfl⟩
    · rintro ⟨t, ts, ht, hts, rfl⟩
      exact ⟨t, ht, ts, hts, rfl⟩

/-! ## Rules -/

/-- The text of an expression, by one rule for each form. -/
inductive Rendered (f : Formatter) (mode : Mode) : Expr → String → Prop where
  | constant (c : Constant) : Rendered f mode (.constant c) (c.render f)
  | convert {source : Expr} {s : String} (t : Option String) : Rendered f mode source s →
      Rendered f mode (.convert source t) s
  | binary {op : BinaryOp} {l r : Expr} {symbol sl sr : String} {wl wr : Bool} :
      op.symbol = .ok symbol → needsParens l op = .ok wl → needsParens r op = .ok wr →
      Rendered f mode l sl → Rendered f mode r sr →
      Rendered f mode (.binary op l r)
        ((if wl then parens sl else sl) ++ " " ++ symbol ++ " " ++ (if wr then parens sr else sr))
  | unary {op : UnaryOp} {e : Expr} {token s : String} :
      op.token mode = .ok token → Rendered f mode e s →
      Rendered f mode (.unary op e) (if e.isAtomic then token ++ " " ++ s else token ++ parens s)
  | field {source : Expr} (how : Access) (name : String) : source.isMissing = true →
      Rendered f mode (.access how name source) (f.field name)
  | access {source : Expr} {s : String} (how : Access) (name : String) : source.isMissing = false →
      Rendered f mode source s → Rendered f mode (.access how name source) (f.access s name)
  | rangeVar (name : String) (entity : Bool) :
      Rendered f mode (.rangeVar name entity) (rangeVarText name entity)
  | any {source body : Expr} {s : String} : body.isConstant = true → Rendered f mode source s →
      Rendered f mode (.quantifier .any source body none) (s ++ "/any()")
  | lambda {source body : Expr} {v s b : String} (kind : QuantifierKind) :
      Text.isBlankText v = false → Rendered f mode source s → Rendered f mode body b →
      Rendered f mode (.quantifier kind source body (some v))
        (s ++ "/" ++ kind.name ++ "(" ++ v ++ ":" ++ b ++ ")")
  | call {args : List Expr} {source : Expr} {texts : List String} (name : String)
      (kind : ResultKind) : source.isMissing = true → args.length = texts.length →
      (∀ p ∈ args.zip texts, Rendered f mode p.1 p.2) →
      Rendered f mode (.call name args source kind) (name ++ "(" ++ ",".intercalate texts ++ ")")
  | boundCall {args : List Expr} {source : Expr} {s : String} {texts : List String} (name : String)
      (kind : ResultKind) : source.isMissing = false → Rendered f mode source s →
      args.length = texts.length → (∀ p ∈ args.zip texts, Rendered f mode p.1 p.2) →
      Rendered f mode (.call name args source kind)
        (f.access s name ++ "(" ++ ",".intercalate texts ++ ")")
  | namedArg {value : Expr} {s : String} (name : String) : Rendered f mode value s →
      Rendered f mode (.namedArg name value) (name ++ "=" ++ s)
  | paramAlias (name : String) : Rendered f mode (.paramAlias name) name
  | searchTerm (text : String) : Rendered f mode (.searchTerm text) text

/-- Every text is one by the rules. -/
theorem rendered_of_render {e : Expr} (h : e.render f mode = .ok s) : Rendered f mode e s := by
  induction e generalizing s with
  | constant c =>
    cases h
    exact .constant c
  | convert source t ih =>
    rw [render] at h
    exact .convert t (ih h)
  | binary op l r ihl ihr =>
    obtain ⟨symbol, sl, wl, sr, wr, hop, hsl, hwl, hsr, hwr, rfl⟩ := render_binary_eq_ok.1 h
    exact .binary hop hwl hwr (ihl hsl) (ihr hsr)
  | unary op e ih =>
    obtain ⟨token, t, hop, ht, rfl⟩ := render_unary_eq_ok.1 h
    exact .unary hop (ih ht)
  | access how name source ih =>
    rcases render_access_eq_ok.1 h with ⟨hs, rfl⟩ | ⟨hs, t, ht, rfl⟩
    · exact .field how name hs
    · exact .access how name hs (ih ht)
  | rangeVar name entity =>
    cases h
    exact .rangeVar name entity
  | quantifier kind source body var ihs ihb =>
    by_cases hany : kind = .any ∧ var = none
    · obtain ⟨rfl, rfl⟩ := hany
      obtain ⟨hbody, t, ht, rfl⟩ := render_any_eq_ok.1 h
      exact .any hbody (ihs ht)
    · obtain ⟨v, t, b, rfl, hv, ht, hb, rfl⟩ := (render_quantifier_eq_ok hany).1 h
      exact .lambda kind hv (ihs ht) (ihb hb)
  | call name args source kind ihargs ihs =>
    obtain ⟨target, texts, htarget, htexts, rfl⟩ := render_call_eq_ok.1 h
    obtain ⟨hlength, hzip⟩ := List.forall₂_iff_zip.1 (renderAll_eq_ok.1 htexts)
    have hargs : ∀ p ∈ args.zip texts, Rendered f mode p.1 p.2 :=
      fun p hp => ihargs p.1 (List.of_mem_zip hp).1 (hzip hp)
    rcases htarget with ⟨hs, rfl⟩ | ⟨hs, t, ht, rfl⟩
    · exact .call target kind hs hlength hargs
    · exact .boundCall name kind hs (ihs ht) hlength hargs
  | namedArg name value ih =>
    obtain ⟨t, ht, rfl⟩ := render_namedArg_eq_ok.1 h
    exact .namedArg name (ih ht)
  | paramAlias name =>
    cases h
    exact .paramAlias name
  | searchTerm text =>
    cases h
    exact .searchTerm text
  | foreign v => cases h

/-! ## Own texts -/

/-- The member of an enumeration literal stands behind the name of its type, and starts with a
quote. -/
theorem quotedMember?_eq_some {text typeName member : String}
    (h : Dialect.quotedMember? text typeName = some member) :
    text = typeName ++ member ∧ ∃ rest, member = String.ofList ('\'' :: rest) := by
  unfold Dialect.quotedMember? at h
  split_ifs at h
  split at h
  · rename_i rest hrest
    cases h
    have happend := List.isPrefixOf?_eq_some_iff_append_eq.1 hrest
    exact ⟨String.toList_inj.1 (by simpa using happend.symm), rest, rfl⟩
  · cases h

/-- An enumeration literal stays as it is, or what is left of it stands behind the name of its type
and starts with a quote. -/
theorem enumLiteral_cases (root : RootAlias) (text typeName : String) :
    Formatter.enumLiteral ⟨.documentDB, root⟩ text typeName = text ∨
      text = typeName ++ Formatter.enumLiteral ⟨.documentDB, root⟩ text typeName ∧
        ∃ rest, Formatter.enumLiteral ⟨.documentDB, root⟩ text typeName =
          String.ofList ('\'' :: rest) := by
  show (Dialect.documentDB.enumLiteral text typeName).text = text ∨
    text = typeName ++ (Dialect.documentDB.enumLiteral text typeName).text ∧
      ∃ rest, (Dialect.documentDB.enumLiteral text typeName).text = String.ofList ('\'' :: rest)
  unfold Dialect.documentDB
  dsimp only
  split
  · rename_i member hmember
    exact .inr (quotedMember?_eq_some hmember)
  · exact .inl rfl

/-- The texts that an expression itself is rendered with, those of its parts aside.  The written
form of a null is not among them, and the name of a type is only if it can be cut off. -/
def ownTexts : Expr → List String
  | .constant c =>
    if c.value.isNull then [] else if c.isEnum then [c.text, c.typeName.getD ""] else [c.text]
  | .access _ name _ => [name]
  | .rangeVar name _ => [name]
  | .quantifier kind _ _ var => kind.name :: var.toList
  | .call name _ _ _ => [name]
  | .namedArg name _ => [name]
  | .paramAlias name => [name]
  | .searchTerm text => [text]
  | .convert .. | .binary .. | .unary .. | .foreign .. => []

theorem mem_visited_self (e : Expr) : e ∈ e.visited := by
  fun_cases visited e <;> simp

theorem mem_visitedAll {x : Expr} {es : List Expr} :
    x ∈ visitedAll es ↔ ∃ e ∈ es, x ∈ e.visited := by
  induction es with
  | nil => simp [visitedAll]
  | cons e es ih => simp [visitedAll, ih]

/-- Every expression that rendering looks at satisfies `Q`. -/
def Everywhere (Q : Expr → Prop) (e : Expr) : Prop := ∀ x ∈ e.visited, Q x

namespace Everywhere

variable {Q : Expr → Prop} {source body : Expr}

theorem self {e : Expr} (h : e.Everywhere Q) : Q e := h e (mem_visited_self e)

theorem of_convert {t : Option String} (h : Everywhere Q (.convert source t)) :
    Everywhere Q source :=
  fun x hx => h x (by simp [visited, hx])

theorem of_binary {op : BinaryOp} {l r : Expr} (h : Everywhere Q (.binary op l r)) :
    Everywhere Q l ∧ Everywhere Q r :=
  ⟨fun x hx => h x (by simp [visited, hx]), fun x hx => h x (by simp [visited, hx])⟩

theorem of_unary {op : UnaryOp} {e : Expr} (h : Everywhere Q (.unary op e)) : Everywhere Q e :=
  fun x hx => h x (by simp [visited, hx])

theorem of_access {how : Access} {name : String} (h : Everywhere Q (.access how name source))
    (hs : source.isMissing = false) : Everywhere Q source :=
  fun x hx => h x (by simp [visited, hs, hx])

theorem of_any (h : Everywhere Q (.quantifier .any source body none)) : Everywhere Q source :=
  fun x hx => h x (by simp [visited, hx])

theorem of_lambda {kind : QuantifierKind} {v : String}
    (h : Everywhere Q (.quantifier kind source body (some v))) :
    Everywhere Q source ∧ Everywhere Q body :=
  ⟨fun x hx => h x (by simp [visited, hx]), fun x hx => h x (by simp [visited, hx])⟩

theorem of_receiver {name : String} {args : List Expr} {kind : ResultKind}
    (h : Everywhere Q (.call name args source kind)) (hs : source.isMissing = false) :
    Everywhere Q source :=
  fun x hx => h x (by simp [visited, hs, hx])

theorem of_args {name : String} {args : List Expr} {kind : ResultKind}
    (h : Everywhere Q (.call name args source kind)) : ∀ a ∈ args, Everywhere Q a := by
  intro a ha x hx
  have hmem : x ∈ visitedAll args := mem_visitedAll.2 ⟨a, ha, hx⟩
  exact h x (by simp [visited, hmem])

theorem of_namedArg {name : String} {value : Expr} (h : Everywhere Q (.namedArg name value)) :
    Everywhere Q value :=
  fun x hx => h x (by simp [visited, hx])

end Everywhere

/-- Every text that the expression is rendered with satisfies `P`. -/
def TextsSatisfy (P : String → Prop) (e : Expr) : Prop := ∀ x ∈ e.visited, ∀ t ∈ x.ownTexts, P t

namespace TextsSatisfy

variable {P : String → Prop} {source body : Expr}

theorem everywhere {e : Expr} (h : e.TextsSatisfy P) :
    e.Everywhere fun x => ∀ t ∈ x.ownTexts, P t := h

theorem own {e : Expr} (h : e.TextsSatisfy P) {t : String} (ht : t ∈ e.ownTexts) : P t :=
  h.everywhere.self t ht

theorem of_convert {t : Option String} (h : TextsSatisfy P (.convert source t)) :
    TextsSatisfy P source :=
  h.everywhere.of_convert

theorem of_binary {op : BinaryOp} {l r : Expr} (h : TextsSatisfy P (.binary op l r)) :
    TextsSatisfy P l ∧ TextsSatisfy P r :=
  h.everywhere.of_binary

theorem of_unary {op : UnaryOp} {e : Expr} (h : TextsSatisfy P (.unary op e)) : TextsSatisfy P e :=
  h.everywhere.of_unary

theorem of_access {how : Access} {name : String} (h : TextsSatisfy P (.access how name source)) :
    P name ∧ (source.isMissing = false → TextsSatisfy P source) :=
  ⟨h.own (by simp [ownTexts]), h.everywhere.of_access⟩

theorem of_any (h : TextsSatisfy P (.quantifier .any source body none)) : TextsSatisfy P source :=
  h.everywhere.of_any

theorem of_lambda {kind : QuantifierKind} {v : String}
    (h : TextsSatisfy P (.quantifier kind source body (some v))) :
    P kind.name ∧ P v ∧ TextsSatisfy P source ∧ TextsSatisfy P body :=
  ⟨h.own (by simp [ownTexts]), h.own (by simp [ownTexts]), h.everywhere.of_lambda⟩

theorem of_call {name : String} {args : List Expr} {kind : ResultKind}
    (h : TextsSatisfy P (.call name args source kind)) :
    P name ∧ (source.isMissing = false → TextsSatisfy P source) ∧ ∀ a ∈ args, TextsSatisfy P a :=
  ⟨h.own (by simp [ownTexts]), h.everywhere.of_receiver, h.everywhere.of_args⟩

theorem of_namedArg {name : String} {value : Expr} (h : TextsSatisfy P (.namedArg name value)) :
    P name ∧ TextsSatisfy P value :=
  ⟨h.own (by simp [ownTexts]), h.everywhere.of_namedArg⟩

end TextsSatisfy

end Expr

/-! ## Clauses -/

theorem mapM_eq_ok {ε α β : Type} {g : α → Except ε β} {xs : List α} {ys : List β} :
    xs.mapM g = .ok ys ↔ List.Forall₂ (fun x y => g x = .ok y) xs ys := by
  induction xs generalizing ys with
  | nil => simp [pure, Except.pure, eq_comm]
  | cons x xs ih =>
    rw [List.mapM_cons]
    simp only [bind_eq_ok, ih, List.forall₂_cons_left_iff]
    constructor
    · rintro ⟨y, hy, ys, hys, h⟩
      cases h
      exact ⟨y, ys, hy, hys, rfl⟩
    · rintro ⟨y, ys, hy, hys, rfl⟩
      exact ⟨y, hy, ys, hys, rfl⟩

section Orders

variable {f : Formatter} {s : String}

theorem OrderItem.render_eq_ok {item : OrderItem} :
    item.render f = .ok s ↔
      ∃ t, item.expr.render f .filter = .ok t ∧ s = t ++ " " ++ item.direction.word := by
  rw [OrderItem.render, bind_eq_ok]
  constructor
  · rintro ⟨t, ht, h⟩
    cases h
    exact ⟨t, ht, rfl⟩
  · rintro ⟨t, ht, rfl⟩
    exact ⟨t, ht, rfl⟩

theorem OrderBy.render_eq_ok {o : OrderBy} :
    o.render f = .ok s ↔
      ∃ texts, List.Forall₂ (fun item t => OrderItem.render f item = .ok t) o.items texts ∧
        s = ", ".intercalate texts := by
  rw [OrderBy.render, bind_eq_ok]
  simp only [mapM_eq_ok]
  constructor
  · rintro ⟨texts, htexts, h⟩
    cases h
    exact ⟨texts, htexts, rfl⟩
  · rintro ⟨texts, htexts, rfl⟩
    exact ⟨texts, htexts, rfl⟩

end Orders

namespace Assembler

variable {a : Assembler} {o : QueryOptions} {c : Clauses} {extra : Option String}

theorem conjunct_eq_ok {e : Expr} {s : String} :
    a.conjunct e = .ok s ↔
      ∃ t wrap, e.renderFilter a.formatter = .ok t ∧ needsParens e .and = .ok wrap ∧
        s = if wrap then parens t else t := by
  rw [conjunct]
  simp only [bind_eq_ok, operandText]
  constructor
  · rintro ⟨t, ht, wrap, hwrap, h⟩
    cases h
    exact ⟨t, wrap, ht, hwrap, rfl⟩
  · rintro ⟨t, wrap, ht, hwrap, rfl⟩
    exact ⟨t, ht, wrap, hwrap, rfl⟩

theorem orderParts_eq_ok {order : Option OrderBy} {parts : List String} :
    a.orderParts order = .ok parts ↔
      order = none ∧ parts = [] ∨
        ∃ ob t, order = some ob ∧ ob.render a.formatter = .ok t ∧ parts = ["ORDER BY " ++ t] := by
  cases order with
  | none => simp [orderParts, eq_comm]
  | some ob =>
    rw [orderParts, orderClause]
    simp only [bind_eq_ok, reduceCtorEq, false_and, false_or, Option.some.injEq]
    constructor
    · rintro ⟨_, ⟨t, ht, h⟩, h'⟩
      cases h
      cases h'
      exact ⟨ob, t, rfl, ht, rfl⟩
    · rintro ⟨_, t, rfl, ht, rfl⟩
      exact ⟨_, ⟨t, ht, rfl⟩, rfl⟩

theorem selectParts_eq_ok {parts : List String} (h : a.selectParts o c = .ok parts) :
    c.select = false ∧ parts = [] ∨ c.select = true ∧ ∃ rest, parts = ["SELECT " ++ rest] := by
  rw [selectParts] at h
  cases hc : c.select with
  | false =>
    rw [hc] at h
    cases h
    exact .inl ⟨rfl, rfl⟩
  | true =>
    rw [hc, if_pos rfl] at h
    obtain ⟨limit, -, h⟩ := bind_eq_ok.1 h
    cases h
    refine .inr ⟨rfl, limit ++ a.projection o.select ++ " " ++ a.fromClause, ?_⟩
    simp [String.append_assoc]

/-- The predicates with a filter: it is an operand of `AND` if there is a predicate before it. -/
theorem predicates_eq_ok {e : Expr} (he : o.filter = some e) {ps : List String}
    (h : a.predicates o extra = .ok ps) :
    ∃ s, (e.renderFilter a.formatter = .ok s ∨ a.conjunct e = .ok s) ∧
      ps = ((extra.filter (· ≠ "")).toList ++ [s]).filter (· ≠ "") := by
  rw [predicates, he] at h
  dsimp only at h
  split at h
  · obtain ⟨s, hs, h⟩ := bind_eq_ok.1 h
    cases h
    exact ⟨s, .inl hs, rfl⟩
  · obtain ⟨s, hs, h⟩ := bind_eq_ok.1 h
    cases h
    exact ⟨s, .inr hs, rfl⟩

theorem whereParts_eq_ok {parts : List String} (h : a.whereParts o c extra = .ok parts) :
    parts = [] ∨ ∃ w, parts = ["WHERE " ++ w] := by
  rw [whereParts] at h
  split at h
  · obtain ⟨ps, -, h⟩ := bind_eq_ok.1 h
    cases h
    split
    · exact .inl rfl
    · exact .inr ⟨_, rfl⟩
  · cases h
    exact .inl rfl

theorem clauseText_eq_ok {sql : String} :
    a.clauseText o c extra = .ok sql ↔
      ∃ select filter order, a.selectParts o c = .ok select ∧ a.whereParts o c extra = .ok filter ∧
        a.orderParts (if c.orderBy then o.orderBy else none) = .ok order ∧
        sql = " ".intercalate (select ++ filter ++ order) := by
  rw [clauseText]
  simp only [bind_eq_ok, mapError_eq_ok]
  constructor
  · rintro ⟨select, hselect, filter, hfilter, order, horder, h⟩
    cases h
    exact ⟨select, filter, order, hselect, hfilter, horder, rfl⟩
  · rintro ⟨select, filter, order, hselect, hfilter, horder, rfl⟩
    exact ⟨select, hselect, filter, hfilter, order, horder, rfl⟩

end Assembler

end DocQuery
