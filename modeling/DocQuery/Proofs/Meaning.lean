import DocQuery.Proofs.Readable

/-!
# The meaning of a condition

An `Interpretation` gives values to words and to the comparisons; `AND` and `OR` are the boolean
connectives.

* `Phrase.value?`, `Expr.value?`: the value of a phrase and of an expression, if it is made of
  leaves, conversions, connectives and comparisons only (`Condition`).
* `Expr.comparesComparison`: the expression is a comparison, and its right operand is one too.  The
  text of such an expression is read with the first comparison as the left operand of the second.
* `Expr.comparesFlat`: no part of the expression is of that kind.
* `Expr.value_text`: what the text of a condition means.
-/

namespace DocQuery

/-- Values for words, and functions on values for comparisons.  Truth values are among the values,
and every value counts as true or as false. -/
structure Interpretation (V : Type) where
  leaf : String → V
  compare : BinaryOp → V → V → V
  truth : V → Bool
  ofBool : Bool → V
  truth_ofBool : ∀ b, truth (ofBool b) = b

/-- The six comparisons. -/
def BinaryOp.isComparison : BinaryOp → Bool
  | .eq | .ne | .gt | .ge | .lt | .le => true
  | _ => false

theorem BinaryOp.level_of_isComparison {op : BinaryOp} (h : op.isComparison = true) :
    op.level = 3 := by
  cases op <;> simp_all [isComparison, level]

namespace Interpretation

variable {V : Type} (I : Interpretation V)

/-- The value of an operator applied to values. -/
def combine : BinaryOp → V → V → V
  | .or, x, y => I.ofBool (I.truth x || I.truth y)
  | .and, x, y => I.ofBool (I.truth x && I.truth y)
  | op, x, y => I.compare op x y

theorem combine_of_isComparison {op : BinaryOp} (h : op.isComparison = true) (x y : V) :
    I.combine op x y = I.compare op x y := by
  cases op with
  | or | and => simp [BinaryOp.isComparison] at h
  | _ => rfl

theorem combine_assoc {op : BinaryOp} (h : op = .or ∨ op = .and) (x y z : V) :
    I.combine op (I.combine op x y) z = I.combine op x (I.combine op y z) := by
  rcases h with rfl | rfl
  · simp only [combine, truth_ofBool, Bool.or_assoc]
  · simp only [combine, truth_ofBool, Bool.and_assoc]

end Interpretation

/-! ## Values of phrases -/

namespace Phrase

variable {V : Type} (I : Interpretation V)

/-- The value of a phrase of words, groups and operators with two operands. -/
def value? : Phrase → Option V
  | .word text => some (I.leaf text)
  | .group inner => inner.value?
  | .binary op left right => do
    let x ← left.value?
    let y ← right.value?
    return I.combine op x y
  | _ => none

variable {I}

theorem value?_binary {op : BinaryOp} {l r : Phrase} {x y : V} (hl : l.value? I = some x)
    (hr : r.value? I = some y) : (binary op l r).value? I = some (I.combine op x y) := by
  rw [value?, hl, hr]
  rfl

theorem value?_binary_eq_some {op : BinaryOp} {l r : Phrase} {v : V}
    (h : (binary op l r).value? I = some v) :
    ∃ x y, l.value? I = some x ∧ r.value? I = some y ∧ v = I.combine op x y := by
  simp only [value?, Option.bind_eq_bind, Option.bind_eq_some_iff, Option.pure_def,
    Option.some.injEq] at h
  obtain ⟨x, hx, y, hy, rfl⟩ := h
  exact ⟨x, y, hx, hy, rfl⟩

theorem value?_bare (x : Phrase) : x.bare.value? I = x.value? I := by
  induction x with
  | group inner ih => rw [bare, value?, ih]
  | binary op l r ihl ihr => rw [bare, value?, value?, ihl, ihr]
  | _ => rfl

theorem level_leftAssoc (x : Phrase) : x.leftAssoc.level = x.level := by
  cases x with
  | binary op l r => rw [leftAssoc, level_graft]; rfl
  | _ => rfl

/-- A chain of one connective has the same value however it is grouped. -/
theorem value?_graft {op : BinaryOp} (hop : op = .or ∨ op = .and) {l r : Phrase} {x y : V}
    (hl : l.value? I = some x) (hr : r.value? I = some y) :
    (graft op l r).value? I = some (I.combine op x y) := by
  induction r generalizing y with
  | binary o a b iha _ =>
    obtain ⟨va, vb, ha, hb, rfl⟩ := value?_binary_eq_some hr
    by_cases ho : o.level = op.level
    · have hoo : o = op := by
        rcases hop with rfl | rfl <;> cases o <;> simp_all [BinaryOp.level]
      subst hoo
      rw [graft_binary rfl, value?_binary (iha ha) hb, I.combine_assoc hop]
    · rw [graft_binary_of_ne ho, value?_binary hl hr]
  | _ => exact value?_binary hl hr

end Phrase

/-! ## Values of expressions -/

namespace Expr

section Values

variable (f : Formatter) (mode : Mode)

/-- Leaves, conversions, connectives and comparisons. -/
inductive Condition : Expr → Prop where
  | leaf {e : Expr} : Leaf f mode e → Condition e
  | convert {e : Expr} {t : Option String} : Condition e → Condition (.convert e t)
  | binary {op : BinaryOp} {l r : Expr} : op.isCondition = true → Condition l → Condition r →
      Condition (.binary op l r)

/-- The value of an expression; conversions do not change it, and a leaf has the value of its
word. -/
def value? {V : Type} (I : Interpretation V) : Expr → Option V
  | .convert source _ => source.value? I
  | .binary op left right => do
    let x ← left.value? I
    let y ← right.value? I
    return I.combine op x y
  | .unary .. | .call .. | .quantifier .. | .namedArg .. | .foreign _ => none
  | e => some (I.leaf (e.text f mode))

end Values

/-- Is the expression, conversions aside, a comparison? -/
def isComparison (e : Expr) : Bool :=
  match e.unwrap with
  | .binary op _ _ => op.isComparison
  | _ => false

/-- Is the expression, conversions aside, a comparison with a comparison as its right operand? -/
def comparesComparison : Expr → Bool
  | .convert source _ => source.comparesComparison
  | .binary op _ right => op.isComparison && right.isComparison
  | _ => false

/-- Does no comparison have a comparison as its right operand? -/
def comparesFlat : Expr → Bool
  | .convert source _ => source.comparesFlat
  | .binary op left right =>
    !(binary op left right).comparesComparison && left.comparesFlat && right.comparesFlat
  | _ => true

variable {f : Formatter} {mode : Mode}

theorem Condition.readable {e : Expr} (h : Condition f mode e) : Readable f mode e := by
  induction h with
  | leaf hl => exact .leaf hl
  | convert _ ih => exact .convert ih
  | binary hop _ _ ihl ihr => exact .binary hop ihl ihr

theorem value?_of_isLeaf {V : Type} {I : Interpretation V} {e : Expr} (h : e.isLeaf = true) :
    e.value? f mode I = some (I.leaf (e.text f mode)) := by
  cases e <;> simp_all [isLeaf, value?]

theorem outline_of_isLeaf {e : Expr} (h : e.isLeaf = true) :
    e.outline f mode = .word (e.text f mode) := by
  cases e <;> simp_all [isLeaf, outline]

theorem connective_or_comparison {op : BinaryOp} (h : op.isCondition = true) :
    (op = .or ∨ op = .and) ∧ op.level ≠ 3 ∨ op.isComparison = true ∧ op.level = 3 := by
  cases op <;> simp_all [BinaryOp.isCondition, BinaryOp.isComparison, BinaryOp.level]

/-- The phrase of a condition holds as tightly as a comparison exactly if the condition is one. -/
theorem Condition.level_outline {e : Expr} (h : Condition f mode e) :
    (e.outline f mode).level = 3 ↔ e.isComparison = true := by
  induction h with
  | @leaf e hl =>
    obtain ⟨_, _, _, hleaf⟩ := hl.render_eq
    rw [outline_of_isLeaf hleaf, isComparison, unwrap_of_isLeaf hleaf]
    cases e <;> simp_all [isLeaf, Phrase.level]
  | convert _ ih => rw [outline]; exact ih
  | binary hop _ _ _ _ =>
    rw [outline]
    rcases connective_or_comparison hop with ⟨ho, hlevel⟩ | ⟨ho, hlevel⟩
    · rcases ho with rfl | rfl <;>
        simp [Phrase.level, isComparison, unwrap, BinaryOp.level, BinaryOp.isComparison]
    · simp [Phrase.level, isComparison, unwrap, hlevel, ho]

/-- Grouping to the left does not change the value of a condition in which no comparison has a
comparison on its right: what is regrouped are chains of one connective. -/
theorem Condition.value_of_comparesFlat {V : Type} (I : Interpretation V) {e : Expr}
    (h : Condition f mode e) (hflat : e.comparesFlat = true) :
    ∃ v, e.value? f mode I = some v ∧ (e.outline f mode).leftAssoc.value? I = some v := by
  induction h with
  | leaf hl =>
    obtain ⟨_, _, _, hleaf⟩ := hl.render_eq
    exact ⟨_, value?_of_isLeaf hleaf, by rw [outline_of_isLeaf hleaf]; rfl⟩
  | convert _ ih =>
    rw [comparesFlat] at hflat
    rw [value?, outline]
    exact ih hflat
  | @binary op l r hop _ hr ihl ihr =>
    simp only [comparesFlat, Bool.and_eq_true, Bool.not_eq_true'] at hflat
    obtain ⟨⟨hroot, hfl⟩, hfr⟩ := hflat
    obtain ⟨x, hx, hx'⟩ := ihl hfl
    obtain ⟨y, hy, hy'⟩ := ihr hfr
    refine ⟨I.combine op x y, by rw [value?, hx, hy]; rfl, ?_⟩
    rw [outline, Phrase.leftAssoc]
    rcases connective_or_comparison hop with ⟨hconn, _⟩ | ⟨hcmp, hlevel⟩
    · exact Phrase.value?_graft hconn hx' hy'
    · -- the right operand is no comparison, so nothing is regrouped here
      have hne : (r.outline f mode).leftAssoc.level ≠ op.level := by
        rw [Phrase.level_leftAssoc, hlevel, Ne, hr.level_outline]
        simpa [comparesComparison, hcmp] using hroot
      rw [Phrase.graft_of_level_ne hne]
      exact Phrase.value?_binary hx' hy'

end Expr

/-! ## Comparisons of comparisons -/

namespace Interpretation

/-- Numbers as values.  The truth values are 1 and 0, and 0 is the only number that counts as
false. -/
def numbers (leaf : String → Nat) (compare : BinaryOp → Nat → Nat → Nat) : Interpretation Nat where
  leaf := leaf
  compare := compare
  truth n := decide (0 < n)
  ofBool b := b.toNat
  truth_ofBool b := by cases b <;> rfl

/-- Counts the comparisons in which a word stands on the left. -/
def depth : Interpretation Nat :=
  numbers (fun _ => 0) fun _ x _ => x + 1

/-- An active item with price 10, and numbers compared as numbers. -/
def activeItem : Interpretation Nat :=
  numbers (fun word => if word = "c.Active" then 1 else if word = "c.Price" then 10 else 5)
    fun op x y => Bool.toNat <| match op with
      | .eq => x == y
      | .ne => x != y
      | .gt => decide (y < x)
      | .ge => decide (y ≤ x)
      | .lt => decide (x < y)
      | .le => decide (x ≤ y)
      | _ => false

end Interpretation

/-- In a chain of comparisons grouped to the left, the left operand stands deeper for each
comparison to its right. -/
theorem Phrase.depth_graft {op : BinaryOp} (hop : op.level = 3) {l r : Phrase} {x y : Nat}
    (hl : l.value? .depth = some x) (hr : r.value? .depth = some y) :
    ∃ v, (graft op l r).value? .depth = some v ∧ x + 1 ≤ v ∧ (r.level = 3 → x + 2 ≤ v) := by
  have hcombine : ∀ {o : BinaryOp}, o.level = 3 →
      ∀ a b, Interpretation.depth.combine o a b = a + 1 := by
    intro o ho a b
    cases o with
    | or | and => simp [BinaryOp.level] at ho
    | _ => rfl
  induction r generalizing y with
  | binary o a b iha _ =>
    obtain ⟨va, vb, ha, hb, rfl⟩ := value?_binary_eq_some hr
    by_cases ho : o.level = op.level
    · obtain ⟨v, hv, hle, -⟩ := iha ha
      refine ⟨v + 1, ?_, by omega, fun _ => by omega⟩
      rw [graft_binary ho, value?_binary hv hb, hcombine (ho.trans hop)]
    · refine ⟨x + 1, ?_, Nat.le_refl _, fun h => absurd (h.trans hop.symm) ho⟩
      rw [graft_binary_of_ne ho, value?_binary hl hr, hcombine hop]
  | _ =>
    refine ⟨x + 1, ?_, Nat.le_refl _, fun h => absurd h (by simp [level])⟩
    rw [graft_of_level_ne (by simp [level, hop]), value?_binary hl hr, hcombine hop]

namespace Expr

variable {f : Formatter} {mode : Mode}

/-- Grouping to the left only ever puts leaves deeper, and leaves the truth of a condition as it
is. -/
theorem Condition.depth_le {e : Expr} (h : Condition f mode e) :
    ∃ v w, e.value? f mode .depth = some v ∧
      (e.outline f mode).leftAssoc.value? .depth = some w ∧ v ≤ w ∧
      (0 < v ↔ 0 < w) := by
  induction h with
  | leaf hl =>
    obtain ⟨_, _, _, hleaf⟩ := hl.render_eq
    exact ⟨0, 0, value?_of_isLeaf hleaf,
      by rw [outline_of_isLeaf hleaf]; rfl, Nat.le_refl _, Iff.rfl⟩
  | convert _ ih =>
    rw [value?, outline]
    exact ih
  | @binary op l r hop _ _ ihl ihr =>
    obtain ⟨vl, wl, hvl, hwl, hle, hposl⟩ := ihl
    obtain ⟨vr, wr, hvr, hwr, -, hposr⟩ := ihr
    have hv : (Expr.binary op l r).value? f mode .depth =
        some (Interpretation.depth.combine op vl vr) := by
      rw [value?, hvl, hvr]; rfl
    rw [outline, Phrase.leftAssoc]
    rcases connective_or_comparison hop with ⟨hconn, _⟩ | ⟨hcmp, hlevel⟩
    · have hsame : Interpretation.depth.combine op vl vr =
          Interpretation.depth.combine op wl wr := by
        rcases hconn with rfl | rfl <;>
          simp [Interpretation.combine, Interpretation.depth, Interpretation.numbers, hposl, hposr]
      exact ⟨_, _, hv, Phrase.value?_graft hconn hwl hwr, Nat.le_of_eq hsame, by rw [hsame]⟩
    · obtain ⟨w, hw, hle', -⟩ := Phrase.depth_graft hlevel hwl hwr
      refine ⟨vl + 1, w, ?_, hw, by omega, by omega⟩
      rw [hv, Interpretation.combine_of_isComparison _ hcmp]
      rfl

/-- Grouped to the left, a comparison with a comparison as its right operand has its first word
deeper than before. -/
theorem Condition.depth_lt {e : Expr} (h : Condition f mode e) (he : e.comparesComparison = true) :
    ∃ v w, e.value? f mode .depth = some v ∧ (e.outline f mode).leftAssoc.value? .depth = some w ∧
      v < w := by
  induction h with
  | @leaf e hl =>
    obtain ⟨_, _, _, hleaf⟩ := hl.render_eq
    cases e <;> simp_all [isLeaf, comparesComparison]
  | convert _ ih =>
    rw [outline, value?]
    exact ih he
  | @binary op l r hop hl hr _ _ =>
    simp only [comparesComparison, Bool.and_eq_true] at he
    obtain ⟨hcmp, hright⟩ := he
    have hlevel := BinaryOp.level_of_isComparison hcmp
    obtain ⟨vl, wl, hvl, hwl, hle, -⟩ := hl.depth_le
    obtain ⟨vr, wr, hvr, hwr, -, -⟩ := hr.depth_le
    obtain ⟨w, hw, -, hdeep⟩ := Phrase.depth_graft hlevel hwl hwr
    have hrlevel : (r.outline f mode).leftAssoc.level = 3 := by
      rw [Phrase.level_leftAssoc, hr.level_outline]
      exact hright
    have hv : (Expr.binary op l r).value? f mode .depth = some (vl + 1) := by
      rw [value?, hvl, hvr]
      exact congrArg some (Interpretation.combine_of_isComparison _ hcmp vl vr)
    have hlt := hdeep hrlevel
    refine ⟨vl + 1, w, hv, ?_, by omega⟩
    rw [outline, Phrase.leftAssoc, hw]

/-- The text of a condition can be read, and it means the condition with every chain of operators
grouped to the left.  This is the condition itself unless a comparison has a comparison as its right
operand.  For such a comparison there are values for which the two differ. -/
theorem value_text {e : Expr} (h : Condition f mode e) :
    ∃ s x, e.render f mode = .ok s ∧ read s = some x ∧
      (∀ (V : Type) (I : Interpretation V), x.value? I = (e.outline f mode).leftAssoc.value? I) ∧
      (e.comparesFlat = true → ∀ (V : Type) (I : Interpretation V),
        ∃ v, e.value? f mode I = some v ∧ x.value? I = some v) ∧
      (e.comparesComparison = true → ∃ (V : Type) (I : Interpretation V) (v w : V),
        e.value? f mode I = some v ∧ x.value? I = some w ∧ v ≠ w) := by
  obtain ⟨s, hs, hsp⟩ := h.readable.spells
  have hvalue : ∀ (V : Type) (I : Interpretation V),
      (e.written f mode).value? I = (e.outline f mode).leftAssoc.value? I := by
    intro V I
    rw [← Phrase.value?_bare, bare_written]
  refine ⟨s, e.written f mode, hs, hsp.read_eq, hvalue, fun hflat V I => ?_, fun hcc => ?_⟩
  · obtain ⟨v, hv, hv'⟩ := h.value_of_comparesFlat I hflat
    exact ⟨v, hv, (hvalue V I).trans hv'⟩
  · obtain ⟨v, w, hv, hw, hlt⟩ := h.depth_lt hcc
    exact ⟨Nat, .depth, v, w, hv, (hvalue Nat .depth).trans hw, Nat.ne_of_lt hlt⟩

/-- `Active eq (Price gt 5)`. -/
def activeFilter : Expr :=
  .binary .eq (prop "Active") (.binary .gt (prop "Price") (lit (.int 5)))

/-- `Active or ((Price gt 5) or Price eq 5)`, the comparison converted. -/
def eitherFilter : Expr :=
  .binary .or (prop "Active")
    (.binary .or (.convert (.binary .gt (prop "Price") (lit (.int 5))) none)
      (.binary .eq (prop "Price") (lit (.int 5))))

theorem condition_filters :
    Condition .default .filter activeFilter ∧ Condition .default .filter eitherFilter := by
  have hactive : Condition .default .filter (prop "Active") :=
    .leaf (.word rfl rfl (s := "c.Active") ⟨by decide, by decide, by decide⟩)
  have hprice : Condition .default .filter (prop "Price") :=
    .leaf (.word rfl rfl (s := "c.Price") ⟨by decide, by decide, by decide⟩)
  have hfive : Condition .default .filter (lit (.int 5)) :=
    .leaf (.word rfl rfl (s := "5") ⟨by decide, by decide, by decide⟩)
  exact ⟨.binary rfl hactive (.binary rfl hprice hfive),
    .binary rfl hactive
      (.binary rfl (.convert (.binary rfl hprice hfive)) (.binary rfl hprice hfive))⟩

/-- The text of `Active eq (Price gt 5)` is false of an active item with price 10, and the condition
is true of it. -/
theorem value_text_activeFilter :
    Condition .default .filter activeFilter ∧
      activeFilter.render .default .filter = .ok "c.Active = c.Price > 5" ∧
      activeFilter.value? .default .filter .activeItem = some 1 ∧
      (read "c.Active = c.Price > 5").bind (·.value? .activeItem) = some 0 :=
  ⟨condition_filters.1, rfl, rfl, rfl⟩

theorem value_text_filters :
    (eitherFilter.comparesFlat = true ∧ ∃ s x,
        eitherFilter.render .default .filter = .ok s ∧ read s = some x ∧
        ∀ (V : Type) (I : Interpretation V),
          ∃ v, eitherFilter.value? .default .filter I = some v ∧ x.value? I = some v) ∧
      activeFilter.comparesComparison = true ∧ ∃ s x, activeFilter.render .default .filter = .ok s ∧
        read s = some x ∧ ∃ (V : Type) (I : Interpretation V) (v w : V),
          activeFilter.value? .default .filter I = some v ∧ x.value? I = some w ∧ v ≠ w := by
  obtain ⟨s, x, hs, hx, -, hflat, -⟩ := value_text condition_filters.2
  obtain ⟨s', x', hs', hx', -, -, hcc⟩ := value_text condition_filters.1
  exact ⟨⟨rfl, s, x, hs, hx, hflat rfl⟩, rfl, s', x', hs', hx', hcc rfl⟩

end Expr

end DocQuery
