import DocQuery.Proofs.FirstDefect

/-!
# Implicit conversions

An implicit conversion leaves no trace in a text: what is written is its source.

* `Expr.unconverted`: the expression without its conversions, but for those at the two places where
  rendering asks what kind of expression stands there, directly behind a unary operator and as the
  body of an `any` without a range variable.
* `Expr.conversions_unconverted`: no other conversion is left.
* `Expr.render_without_conversions`: the expression is rendered as before, unless a conversion has
  no source.
-/

namespace DocQuery

namespace Expr

mutual

/-- The expression without its implicit conversions, but for one directly behind a unary operator
and one that is the body of an `any` without a range variable. -/
def unconverted : Expr → Expr
  | .convert source _ => source.unconverted
  | .binary op left right => .binary op left.unconverted right.unconverted
  | .unary op (.convert source t) => .unary op (.convert source.unconverted t)
  | .unary op operand => .unary op operand.unconverted
  | .access how name source => .access how name source.unconverted
  | .quantifier .any source (.convert body t) none =>
    .quantifier .any source.unconverted (.convert body.unconverted t) none
  | .quantifier kind source body var => .quantifier kind source.unconverted body.unconverted var
  | .call name args source kind => .call name (unconvertedAll args) source.unconverted kind
  | .namedArg name value => .namedArg name value.unconverted
  | e => e

/-- The expressions without their implicit conversions. -/
def unconvertedAll : List Expr → List Expr
  | [] => []
  | e :: es => e.unconverted :: unconvertedAll es

end

def isConversion : Expr → Bool
  | .convert .. => true
  | _ => false

/-- Does a conversion stand directly behind the operator, or as the body of an `any` without a range
variable? -/
def keepsConversion : Expr → Bool
  | .unary _ operand => operand.isConversion
  | .quantifier .any _ body none => body.isConversion
  | _ => false

/-- Every conversion in the expression has a source. -/
def ConvertsPresent (e : Expr) : Prop := e.AllNodes fun x => ∀ t, x ≠ .convert .missing t

/-! ## Heads -/

/-- Behind a unary operator, a conversion stays. -/
theorem unconverted_unary (op : UnaryOp) (e : Expr) :
    e.isConversion = false ∧ (Expr.unary op e).unconverted = .unary op e.unconverted ∨
      ∃ source t, e = .convert source t ∧
        (Expr.unary op e).unconverted = .unary op (.convert source.unconverted t) := by
  cases e with
  | convert source t => exact .inr ⟨source, t, rfl, by rw [unconverted]⟩
  | _ => exact .inl ⟨rfl, rfl⟩

-- of two conversions in a row, only the outer one stands directly behind the operator
example : (Expr.unary .not (.convert (.convert it none) none)).unconverted =
    .unary .not (.convert it none) := by cbv

/-- As the body of an `any` without a range variable, a conversion stays. -/
theorem unconverted_quantifier (kind : QuantifierKind) (source body : Expr) (var : Option String) :
    ((kind = .any → var = none → body.isConversion = false) ∧
        (Expr.quantifier kind source body var).unconverted =
          .quantifier kind source.unconverted body.unconverted var) ∨
      ∃ b t, kind = .any ∧ var = none ∧ body = .convert b t ∧
        (Expr.quantifier kind source body var).unconverted =
          .quantifier .any source.unconverted (.convert b.unconverted t) none := by
  by_cases hkept : kind = .any ∧ var = none ∧ body.isConversion = true
  · obtain ⟨rfl, rfl, hbody⟩ := hkept
    cases body with
    | convert b t => exact .inr ⟨b, t, rfl, rfl, rfl, by rw [unconverted]⟩
    | _ => simp [isConversion] at hbody
  · refine .inl ⟨fun hkind hvar => by simpa [hkind, hvar] using hkept, ?_⟩
    rw [unconverted]
    rintro b t rfl rfl rfl
    exact hkept ⟨rfl, rfl, rfl⟩

theorem keepsConversion_quantifier {kind : QuantifierKind} (source : Expr) {body : Expr}
    {var : Option String} (h : kind = .any → var = none → body.isConversion = false) :
    (Expr.quantifier kind source body var).keepsConversion = false := by
  rcases bareAny_or kind var with ⟨rfl, rfl⟩ | hne
  · exact h rfl rfl
  · rw [keepsConversion]
    · simp
    · rintro source' body' heq
      cases heq
      exact hne rfl rfl

theorem isConversion_unconverted {e : Expr} (h : e.isConversion = false) :
    e.unconverted.isConversion = false := by
  fun_cases unconverted e <;> simp_all [isConversion]

theorem isAtomic_unconverted {e : Expr} (h : e.isConversion = false) :
    e.unconverted.isAtomic = e.isAtomic := by
  fun_cases unconverted e <;> simp_all [isConversion, isAtomic]

theorem isConstant_unconverted {e : Expr} (h : e.isConversion = false) :
    e.unconverted.isConstant = e.isConstant := by
  fun_cases unconverted e <;> simp_all [isConversion, isConstant]

theorem missing_ne_convert (t : Option String) : missing ≠ .convert .missing t := by
  simp [missing]

theorem unwrap_of_isConversion {e : Expr} (h : e.isConversion = false) : e.unwrap = e := by
  cases e <;> simp_all [isConversion, unwrap]

theorem unwrap_unconverted (e : Expr) : e.unconverted.unwrap = e.unwrap.unconverted := by
  induction e with
  | convert source t ih => rw [unconverted, unwrap, ih]
  | _ => exact unwrap_of_isConversion (isConversion_unconverted rfl)

/-- An expression that is there does not vanish. -/
theorem isMissing_unconverted {e : Expr} (h : e.ConvertsPresent) :
    e.unconverted.isMissing = e.isMissing := by
  induction e with
  | convert source t ih =>
    have hs : source.isMissing = false := by
      rw [← Bool.not_eq_true]
      intro hm
      exact h.self t (by rw [eq_missing_of_isMissing hm])
    rw [unconverted, ih h.of_convert, hs]
    rfl
  | unary op e => cases e <;> rfl
  | quantifier kind source body var =>
    unfold unconverted
    split <;> simp_all [isMissing]
  | _ => rfl

/-- Whether parentheses are needed is asked of what stands under the conversions. -/
theorem needsParens_unconverted (e : Expr) (op : BinaryOp) :
    needsParens e.unconverted op = needsParens e op := by
  rw [needsParens, needsParens, unwrap_unconverted]
  have hu : e.unwrap.isConversion = false := by
    cases hu : e.unwrap with
    | convert source t => exact absurd hu (unwrap_ne_convert e source t)
    | _ => rfl
  generalize e.unwrap = x at hu ⊢
  fun_cases unconverted x <;> simp_all [isConversion]

/-! ## Rendering -/

section Rendering

variable {f : Formatter} {mode : Mode}

theorem renderAll_unconverted {es : List Expr}
    (h : ∀ e ∈ es, e.unconverted.render f mode = e.render f mode) :
    renderAll f mode (unconvertedAll es) = renderAll f mode es := by
  induction es with
  | nil => rfl
  | cons e es ih =>
    rw [unconvertedAll, renderAll, renderAll, h e (by simp),
      ih fun e he => h e (List.mem_cons_of_mem _ he)]

theorem render_unconverted {e : Expr} (h : e.ConvertsPresent) :
    e.unconverted.render f mode = e.render f mode := by
  induction e with
  | convert source t ih =>
    rw [unconverted, render]
    exact ih h.of_convert
  | binary op l r ihl ihr =>
    have hl := ihl h.of_binary.1
    have hr := ihr h.of_binary.2
    simp only [unconverted, render, operandText, needsParens_unconverted, hl, hr]
  | unary op e ih =>
    have he := ih h.of_unary
    rcases unconverted_unary op e with ⟨hc, hu⟩ | ⟨source, t, rfl, hu⟩
    · rw [hu, render, render, he, isAtomic_unconverted hc]
    · -- the conversion stays, so the operand is in parentheses as before
      rw [unconverted, render] at he
      rw [hu, render, render, render, he, render]
      rfl
  | access how name source ih =>
    have hs : source.ConvertsPresent := h.of_access missing_ne_convert
    rw [unconverted, render, render, isMissing_unconverted hs, ih hs]
  | quantifier kind source body var ihs ihb =>
    have hs := ihs h.of_quantifier.1
    have hb := ihb h.of_quantifier.2
    rcases unconverted_quantifier kind source body var with ⟨hc, hu⟩ | ⟨b, t, rfl, rfl, rfl, hu⟩
    · rcases bareAny_or kind var with ⟨rfl, rfl⟩ | hne
      · rw [hu, render, render, hs, isConstant_unconverted (hc rfl rfl)]
      · rw [hu, render, render, hs, hb]
        · exact hne
        · exact hne
    · -- a conversion is no constant, whatever its source
      rw [hu, render, render]
      rfl
  | call name args source kind ihargs ihs =>
    obtain ⟨hs, hargs⟩ := h.of_call missing_ne_convert
    have hall := renderAll_unconverted fun a ha => ihargs a ha (hargs a ha)
    rw [unconverted, render, render, isMissing_unconverted hs, ihs hs, hall]
  | namedArg name value ih =>
    rw [unconverted, render, render, ih h.of_namedArg]
  | _ => rfl

end Rendering

/-! ## What is left -/

theorem nodesAll_unconverted {es : List Expr}
    (h : ∀ e ∈ es, e.unconverted.nodes.countP isConversion = e.nodes.countP keepsConversion) :
    (nodesAll (unconvertedAll es)).countP isConversion = (nodesAll es).countP keepsConversion := by
  induction es with
  | nil => rfl
  | cons e es ih =>
    simp only [unconvertedAll, nodesAll, List.countP_append, h e (by simp),
      ih fun e he => h e (List.mem_cons_of_mem _ he)]

/-- The conversions that are left are those that stand at one of the two places. -/
theorem conversions_unconverted {e : Expr} (h : e.ConvertsPresent) :
    e.unconverted.nodes.countP isConversion = e.nodes.countP keepsConversion := by
  induction e with
  | convert source t ih =>
    have hs := ih h.of_convert
    simp [unconverted, nodes, keepsConversion, hs]
  | binary op l r ihl ihr =>
    have hl := ihl h.of_binary.1
    have hr := ihr h.of_binary.2
    simp [unconverted, nodes, isConversion, keepsConversion, hl, hr]
  | unary op e ih =>
    have he := ih h.of_unary
    rcases unconverted_unary op e with ⟨hc, hu⟩ | ⟨source, t, rfl, hu⟩
    · have hkeeps : (Expr.unary op e).keepsConversion = false := hc
      simp [hu, nodes, isConversion, hkeeps, he]
    · rw [unconverted] at he
      simp [hu, nodes, isConversion, keepsConversion, List.countP_cons, he]
  | access how name source ih =>
    have hs : source.ConvertsPresent := h.of_access missing_ne_convert
    simp only [unconverted, nodes, isMissing_unconverted hs]
    cases source.isMissing <;> simp [isConversion, keepsConversion, ih hs]
  | quantifier kind source body var ihs ihb =>
    have hs := ihs h.of_quantifier.1
    have hb := ihb h.of_quantifier.2
    rcases unconverted_quantifier kind source body var with ⟨hc, hu⟩ | ⟨b, t, rfl, rfl, rfl, hu⟩
    · have hkeeps := keepsConversion_quantifier source hc
      simp [hu, nodes, isConversion, hkeeps, hs, hb]
    · rw [unconverted] at hb
      simp [hu, nodes, isConversion, keepsConversion, List.countP_cons, hs, hb, Nat.add_assoc]
  | call name args source kind ihargs ihs =>
    obtain ⟨hs, hargs⟩ := h.of_call missing_ne_convert
    have hall := nodesAll_unconverted fun a ha => ihargs a ha (hargs a ha)
    simp only [unconverted, nodes, isMissing_unconverted hs]
    cases source.isMissing <;> simp [isConversion, keepsConversion, ihs hs, hall]
  | namedArg name value ih =>
    have hv := ih h.of_namedArg
    simp [unconverted, nodes, isConversion, keepsConversion, hv]
  | _ => rfl

/-- Without its implicit conversions, an expression has the same text or fails alike, as long as no
conversion lacks a source.  What is left of the conversions stands directly behind a unary operator,
or as the body of an `any` without a range variable. -/
theorem render_without_conversions (f : Formatter) (mode : Mode) {e : Expr}
    (h : ∀ t, .convert .missing t ∉ e.nodes) :
    e.unconverted.render f mode = e.render f mode ∧
      e.unconverted.nodes.countP isConversion = e.nodes.countP keepsConversion := by
  have hpresent : e.ConvertsPresent := fun x hx t heq => h t (heq ▸ hx)
  exact ⟨render_unconverted hpresent, conversions_unconverted hpresent⟩

/-- A filter with conversions around an operand of `and`, around a source and around what is
negated. -/
def convertedFilter : Expr :=
  .binary .and
    (.convert (.convert (.binary .or (.convert (prop "City" (.convert (prop "Owner") none)) none)
      (prop "Public")) none) none)
    (.unary .not (.convert (.convert (lit (.bool true)) none) none))

/-- The parentheses around the disjunction stay, and so do those behind the negation. -/
theorem render_without_conversions_sample :
    convertedFilter.unconverted =
      .binary .and (.binary .or (prop "City" (prop "Owner")) (prop "Public"))
        (.unary .not (.convert (lit (.bool true)) none)) ∧
      convertedFilter.unconverted.render .default .filter =
        .ok "(c.Owner.City OR c.Public) AND not(true)" := by
  have hpresent : ∀ t, .convert .missing t ∉ convertedFilter.nodes := by
    intro t
    simp [convertedFilter, nodes, prop, it, lit, isMissing]
  refine ⟨by simp [convertedFilter, unconverted, prop, it, lit, isMissing], ?_⟩
  rw [(render_without_conversions .default .filter hpresent).1]
  rfl

end Expr

end DocQuery
