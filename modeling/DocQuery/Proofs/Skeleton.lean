import DocQuery.Proofs.FirstDefect

/-!
# Skeletons

Much of what an expression carries along never shows: how a name is reached, what a call or a cast
yields, the target of a conversion, and most of a constant.

* `Expr.skeleton`: the expression without all this.
* `Expr.render_skeleton`: an expression is rendered as its skeleton is.
* `Expr.visited_skeleton`, `Expr.notices_skeleton`: nor does it make a difference to what is
  reported on the way.
* `Expr.skeleton_of_same`: equal expressions have the same skeleton.
* `Expr.render_of_skeleton`: the skeleton decides the text or the error.
-/

namespace DocQuery

namespace Value

theorem same_null (v : Value) : v.same .null = v.isNull := by
  cases v with
  | float x => cases x <;> rfl
  | _ => rfl

theorem null_same (v : Value) : Value.null.same v = v.isNull := by
  cases v <;> rfl

theorem eq_null_of_isNull {v : Value} (h : v.isNull = true) : v = .null := by
  cases v with
  | null => rfl
  | _ => cases h

/-- Of two equal values, both are null or none is. -/
theorem isNull_of_same {a b : Value} (h : a.same b = true) : a.isNull = b.isNull := by
  cases ha : a.isNull with
  | true =>
    rw [eq_null_of_isNull ha, null_same] at h
    exact h.symm
  | false =>
    cases hb : b.isNull with
    | false => rfl
    | true =>
      rw [eq_null_of_isNull hb, same_null, ha] at h
      cases h

end Value

/-- The constant without what never shows.  Of the value only counts whether it is null; if it is,
nothing else does, and if not, only an enumeration literal has a type. -/
def Constant.skeleton (c : Constant) : Constant :=
  if c.value.isNull then .null
  else
    { text := c.text
      value := .bool true
      typeName := if c.isEnum then c.typeName else none
      isEnum := c.isEnum }

namespace Expr

mutual

/-- The expression without what never shows: every name is reached as a declared property, and
conversions, calls and constants lose what they are labelled with. -/
def skeleton : Expr → Expr
  | .constant c => .constant c.skeleton
  | .convert source _ => .convert source.skeleton none
  | .binary op left right => .binary op left.skeleton right.skeleton
  | .unary op operand => .unary op operand.skeleton
  | .access _ name source => .access (.declared false) name source.skeleton
  | .rangeVar name entity => .rangeVar name entity
  | .quantifier kind source body var => .quantifier kind source.skeleton body.skeleton var
  | .call name args source _ => .call name (skeletonAll args) source.skeleton .singleValue
  | .namedArg name value => .namedArg name value.skeleton
  | .paramAlias name => .paramAlias name
  | .searchTerm text => .searchTerm text
  | .foreign value => .foreign value

/-- The skeletons of the expressions. -/
def skeletonAll : List Expr → List Expr
  | [] => []
  | e :: es => e.skeleton :: skeletonAll es

end

/-! ## Heads -/

@[simp] theorem isMissing_skeleton (e : Expr) : e.skeleton.isMissing = e.isMissing := by
  cases e <;> rw [skeleton] <;> rfl

-- neither how a name is reached nor where a conversion leads to is left
example : (Expr.access (.dynamic false) "Name" (.convert it (some "T"))).skeleton =
    .access (.declared false) "Name" (.convert it none) := by cbv

@[simp] theorem isConstant_skeleton (e : Expr) : e.skeleton.isConstant = e.isConstant := by
  cases e <;> rw [skeleton] <;> rfl

@[simp] theorem isAtomic_skeleton (e : Expr) : e.skeleton.isAtomic = e.isAtomic := by
  cases e <;> rw [skeleton] <;> rfl

theorem unwrap_skeleton (e : Expr) : e.skeleton.unwrap = e.unwrap.skeleton := by
  induction e with
  | convert source t ih => rw [skeleton, unwrap, unwrap, ih]
  | _ => simp only [skeleton, unwrap]

theorem needsParens_skeleton (e : Expr) (op : BinaryOp) :
    needsParens e.skeleton op = needsParens e op := by
  rw [needsParens, needsParens, unwrap_skeleton]
  cases e.unwrap <;> rw [skeleton]

/-! ## Rendering -/

section Rendering

variable (f : Formatter) (mode : Mode)

theorem constant_render_skeleton (c : Constant) : c.skeleton.render f = c.render f := by
  unfold Constant.skeleton Constant.render
  split_ifs <;> simp_all [Constant.null, Value.isNull]

theorem renderAll_skeleton {es : List Expr}
    (h : ∀ e ∈ es, e.skeleton.render f mode = e.render f mode) :
    renderAll f mode (skeletonAll es) = renderAll f mode es := by
  induction es with
  | nil => rfl
  | cons e es ih =>
    rw [skeletonAll, renderAll, renderAll, h e (by simp),
      ih fun e he => h e (List.mem_cons_of_mem _ he)]

/-- An expression is rendered as its skeleton is. -/
theorem render_skeleton (e : Expr) : e.skeleton.render f mode = e.render f mode := by
  induction e with
  | constant c => rw [skeleton, render, render, constant_render_skeleton]
  | convert source t ih => rw [skeleton, render, render, ih]
  | binary op l r ihl ihr =>
    simp only [skeleton, render, operandText, needsParens_skeleton, ihl, ihr]
  | unary op e ih => rw [skeleton, render, render, ih, isAtomic_skeleton]
  | access how name source ih => rw [skeleton, render, render, ih, isMissing_skeleton]
  | quantifier kind source body var ihs ihb =>
    rw [skeleton]
    rcases bareAny_or kind var with ⟨rfl, rfl⟩ | hne
    · rw [render, render, ihs, isConstant_skeleton]
    · rw [render, render, ihs, ihb]
      · exact hne
      · exact hne
  | call name args source kind ihargs ihs =>
    rw [skeleton, render, render, ihs, isMissing_skeleton, renderAll_skeleton f mode ihargs]
  | namedArg name value ih => rw [skeleton, render, render, ih]
  | _ => rw [skeleton]

end Rendering

/-! ## What is reported -/

theorem visitedAll_skeleton {es : List Expr}
    (h : ∀ e ∈ es, e.skeleton.visited = e.visited.map skeleton) :
    visitedAll (skeletonAll es) = (visitedAll es).map skeleton := by
  induction es with
  | nil => rfl
  | cons e es ih =>
    rw [skeletonAll, visitedAll, visitedAll, List.map_append, h e (by simp),
      ih fun e he => h e (List.mem_cons_of_mem _ he)]

/-- Rendering looks at the skeletons of what it looked at before. -/
theorem visited_skeleton (e : Expr) : e.skeleton.visited = e.visited.map skeleton := by
  induction e with
  | convert source t ih => simp [skeleton, visited, ih]
  | binary op l r ihl ihr => simp [skeleton, visited, ihl, ihr]
  | unary op e ih => simp [skeleton, visited, ih]
  | access how name source ih => cases hs : source.isMissing <;> simp [skeleton, visited, hs, ih]
  | quantifier kind source body var ihs ihb =>
    rw [skeleton]
    rcases bareAny_or kind var with ⟨rfl, rfl⟩ | hne
    · simp [skeleton, visited, ihs]
    · rw [visited, visited]
      · simp [skeleton, ihs, ihb]
      · exact hne
      · exact hne
  | call name args source kind ihargs ihs =>
    cases hs : source.isMissing <;> simp [skeleton, visited, hs, ihs, visitedAll_skeleton ihargs]
  | namedArg name value ih => simp [skeleton, visited, ih]
  | _ => simp [skeleton, visited]

theorem defect?_skeleton (e : Expr) : e.skeleton.defect? = e.defect? := by
  cases e with
  | unary op e => cases op <;> simp [skeleton, defect?]
  | quantifier kind source body var =>
    rw [skeleton]
    rcases bareAny_or kind var with ⟨rfl, rfl⟩ | hne
    · simp [defect?]
    · rw [defect?, defect?]
      · exact hne
      · exact hne
  | _ => simp [skeleton, defect?]

theorem notice?_skeleton (f : Formatter) (e : Expr) : e.skeleton.notice? f = e.notice? f := by
  cases e with
  | constant c =>
    rw [skeleton, notice?, notice?, Constant.skeleton]
    split_ifs <;> simp_all [Constant.null, Value.isNull]
  | _ => simp [skeleton, notice?]

theorem notices_skeleton (f : Formatter) (e : Expr) : notices f [e.skeleton] = notices f [e] := by
  have hdefect : (fun x : Expr => x.defect?.isNone) ∘ skeleton = fun x => x.defect?.isNone :=
    funext fun x => by rw [Function.comp_apply, defect?_skeleton]
  have hnotice : (fun x : Expr => x.notice? f) ∘ skeleton = fun x => x.notice? f :=
    funext fun x => notice?_skeleton f x
  simp only [notices, List.flatMap_singleton, visited_skeleton, List.takeWhile_map,
    List.filterMap_map, hdefect, hnotice]

/-! ## Equal expressions -/

theorem constant_skeleton_of_same {c c' : Constant}
    (h : (Expr.constant c).same (.constant c') = true) : c.skeleton = c'.skeleton := by
  simp only [same, Bool.and_eq_true, beq_iff_eq] at h
  obtain ⟨⟨⟨htext, hvalue⟩, htype⟩, henum⟩ := h
  rw [Constant.skeleton, Constant.skeleton, Value.isNull_of_same hvalue, htext, htype, henum]

/-- Whatever stands for an expression without being one is null. -/
def ForeignNull (e : Expr) : Prop := e.AllNodes fun x => ∀ v, x = .foreign v → v = .null

theorem eq_null_of_missing {v : Value} (h : missing = .foreign v) : v = .null := by
  cases h
  rfl

theorem skeletonAll_of_same {es es' : List Expr}
    (hes : ∀ e ∈ es, ∀ e', e.same e' = true → e.skeleton = e'.skeleton)
    (h : sameAll es es' = true) : skeletonAll es = skeletonAll es' := by
  induction es generalizing es' with
  | nil =>
    cases es' with
    | nil => rfl
    | cons e' es' => simp [sameAll] at h
  | cons e es ih =>
    cases es' with
    | nil => simp [sameAll] at h
    | cons e' es' =>
      simp only [sameAll, Bool.and_eq_true] at h
      rw [skeletonAll, skeletonAll, hes e (by simp) e' h.1,
        ih (fun e he => hes e (List.mem_cons_of_mem _ he)) h.2]

/-- Equal expressions have the same skeleton, if nothing but null stands for an expression without
being one. -/
theorem skeleton_of_same {e e' : Expr} (hnull : e.ForeignNull) (h : e.same e' = true) :
    e.skeleton = e'.skeleton := by
  induction e generalizing e' with
  | constant c =>
    cases e' with
    | constant c' => rw [skeleton, skeleton, constant_skeleton_of_same h]
    | _ => simp [same] at h
  | convert source t ih =>
    cases e' with
    | convert source' t' =>
      simp only [same, Bool.and_eq_true] at h
      rw [skeleton, skeleton, ih hnull.of_convert h.1]
    | _ => simp [same] at h
  | binary op l r ihl ihr =>
    cases e' with
    | binary op' l' r' =>
      simp only [same, Bool.and_eq_true, beq_iff_eq] at h
      obtain ⟨⟨rfl, hl⟩, hr⟩ := h
      rw [skeleton, skeleton, ihl hnull.of_binary.1 hl, ihr hnull.of_binary.2 hr]
    | _ => simp [same] at h
  | unary op e ih =>
    cases e' with
    | unary op' e' =>
      simp only [same, Bool.and_eq_true, beq_iff_eq] at h
      obtain ⟨rfl, he⟩ := h
      rw [skeleton, skeleton, ih hnull.of_unary he]
    | _ => simp [same] at h
  | access how name source ih =>
    cases e' with
    | access how' name' source' =>
      simp only [same, Bool.and_eq_true, beq_iff_eq] at h
      obtain ⟨⟨-, rfl⟩, hs⟩ := h
      rw [skeleton, skeleton, ih (hnull.of_access fun _ => eq_null_of_missing) hs]
    | _ => simp [same] at h
  | rangeVar name entity =>
    cases e' with
    | rangeVar name' entity' =>
      simp only [same, Bool.and_eq_true, beq_iff_eq] at h
      obtain ⟨rfl, rfl⟩ := h
      rfl
    | _ => simp [same] at h
  | quantifier kind source body var ihs ihb =>
    cases e' with
    | quantifier kind' source' body' var' =>
      simp only [same, Bool.and_eq_true, beq_iff_eq] at h
      obtain ⟨⟨⟨rfl, hs⟩, hb⟩, rfl⟩ := h
      rw [skeleton, skeleton, ihs hnull.of_quantifier.1 hs, ihb hnull.of_quantifier.2 hb]
    | _ => simp [same] at h
  | call name args source kind ihargs ihs =>
    cases e' with
    | call name' args' source' kind' =>
      simp only [same, Bool.and_eq_true, beq_iff_eq] at h
      obtain ⟨⟨⟨rfl, hargs⟩, hs⟩, -⟩ := h
      obtain ⟨hsource, hnulls⟩ := hnull.of_call fun _ => eq_null_of_missing
      have hall : skeletonAll args = skeletonAll args' :=
        skeletonAll_of_same (fun a ha a' haa' => ihargs a ha (hnulls a ha) haa') hargs
      rw [skeleton, skeleton, hall, ihs hsource hs]
    | _ => simp [same] at h
  | namedArg name value ih =>
    cases e' with
    | namedArg name' value' =>
      simp only [same, Bool.and_eq_true, beq_iff_eq] at h
      obtain ⟨rfl, hv⟩ := h
      rw [skeleton, skeleton, ih hnull.of_namedArg hv]
    | _ => simp [same] at h
  | paramAlias name =>
    cases e' with
    | paramAlias name' => rw [beq_iff_eq.1 h]
    | _ => simp [same] at h
  | searchTerm text =>
    cases e' with
    | searchTerm text' => rw [beq_iff_eq.1 h]
    | _ => simp [same] at h
  | foreign v =>
    cases e' with
    | foreign v' =>
      obtain rfl := hnull.self v rfl
      rw [same, Value.null_same] at h
      rw [Value.eq_null_of_isNull h]
    | _ => simp [same] at h

/-- Expressions with the same skeleton have the same text or fail alike, in either mode and for
every formatter, and the same is reported about them.  So it is with equal expressions, unless
something other than null stands for an expression without being one: numbers of different forms may
be equal there, and the error tells them apart. -/
theorem render_of_skeleton (f : Formatter) (mode : Mode) (e e' : Expr)
    (h : e.skeleton = e'.skeleton ∨ e.same e' = true ∧ ∀ v, .foreign v ∈ e.nodes → v = .null) :
    e.render f mode = e'.render f mode ∧ notices f [e] = notices f [e'] := by
  have hskeleton : e.skeleton = e'.skeleton := by
    rcases h with h | ⟨hsame, hnull⟩
    · exact h
    · exact skeleton_of_same (fun x hx v heq => hnull v (heq ▸ hx)) hsame
  constructor
  · rw [← render_skeleton, hskeleton, render_skeleton]
  · rw [← notices_skeleton, hskeleton, notices_skeleton]

/-- A filter with all its labels. -/
def labelledFilter : Expr :=
  .binary .and
    (.binary .eq
      (.access (.navigation (some "Cities") true) "City"
        (.access (.cast .entityCollection) "NS.Owner" (.convert it (some "NS.Person"))))
      (.constant { text := "'Rome'", value := .text "Rome", typeName := some "Edm.String" }))
    (.binary .ne (.call "rank" [.constant (.enum "NS.Color" "Red")] .missing .collection)
      (.constant { text := "NULL", value := .null, typeName := some "Edm.Int32", isEnum := true }))

/-- The same filter without them. -/
def plainFilter : Expr :=
  .binary .and
    (.binary .eq (prop "City" (prop "NS.Owner" (.convert it none)))
      (.constant { text := "'Rome'", value := .int 7 }))
    (.binary .ne (func "rank" [.constant { Constant.enum "NS.Color" "Red" with value := .int 1 }])
      (lit .null))

/-- A null shows as such whatever is written for it, and a true one and a `1` are equal. -/
theorem render_of_skeleton_labelledFilter :
    labelledFilter.render .default .search = plainFilter.render .default .search ∧
      plainFilter.render .default .search = .ok "c.NS.Owner.City = 'Rome' AND rank('Red') != null" ∧
      (Expr.constant { text := "1", value := .int 1 }).render .default .filter =
        (Expr.constant { text := "1", value := .bool true }).render .default .filter := by
  have hskeleton : labelledFilter.skeleton = plainFilter.skeleton := rfl
  have hsame : (Expr.constant { text := "1", value := .int 1 }).same
      (.constant { text := "1", value := .bool true }) =
      true := by decide
  refine ⟨(render_of_skeleton .default .search _ _ (.inl hskeleton)).1, rfl, ?_⟩
  exact (render_of_skeleton .default .filter _ _ (.inr ⟨hsame, by simp [nodes]⟩)).1

end Expr

end DocQuery
