import DocQuery.Proofs.Failures
import DocQuery.Proofs.Registry
import DocQuery.Proofs.Uniform

/-!
# Places of the root alias

A text has the root alias in certain places and does not depend on it in any other way.

* `anyRoot mode`: rendering in one mode for all root aliases, as one family.
* `Assembler.exists_queryTemplate`: a typed query has the alias behind `FROM`, in the predicate for
  its type, and wherever a name in its expressions is reached from the queried document.
* `alias_places`: for expressions and for typed queries, the pieces of text between the aliases are
  the same for all aliases.
-/

namespace DocQuery

open Template DocQuery.Expr

/-- Rendering in one mode, for every root alias. -/
def anyRoot (mode : Mode) : Family RootAlias where
  root root := root
  mode _ := mode
  word := RootAlias.text
  rootWord := .hole
  notWord := .fixed mode.notWord
  isTrimmed_word root := isTrimmed_of_strip root.strip_text root.text_ne_empty
  fill_rootWord root := by simp [Word.template, fill]
  fill_notWord _ := fill_ofText _ _

/-- An expression without a defect has a template, with a hole for every name that is reached from
the queried document. -/
theorem exists_rootTemplate (mode : Mode) {e : Expr} (h : e.firstDefect? = none) :
    ∃ m : Template,
      (∀ root : RootAlias, e.render ⟨.documentDB, root⟩ mode = .ok (fill root.text m)) ∧
      ∀ root, holes m = e.nodes.countP (isRooted ⟨.documentDB, root⟩ mode) := by
  have hfails : FailsAs (e.render .default mode) e.firstDefect? := render_failsAs e
  obtain ⟨s, hs⟩ := hfails.exists_ok_iff.2 h
  obtain ⟨m, hm⟩ := (anyRoot mode).exists_template .default hs
  refine ⟨m, hm.render_eq, fun root => ?_⟩
  have hmarks : (anyRoot mode).marks root = isRooted ⟨.documentDB, root⟩ mode := by
    funext x
    simp [Family.marks, anyRoot, Word.isHole, Family.formatter]
  rw [hm.holes_eq root, hmarks]

/-! ## Queries -/

theorem exists_itemTemplates {items : List OrderItem}
    (h : ∀ item ∈ items, item.expr.firstDefect? = none) :
    ∃ ms : List Template, (∀ root : RootAlias,
        items.mapM (OrderItem.render ⟨.documentDB, root⟩) = .ok (ms.map (fill root.text))) ∧
      ∀ root, holes ms.flatten =
        (nodesAll (items.map (·.expr))).countP (isRooted ⟨.documentDB, root⟩ .filter) := by
  induction items with
  | nil => exact ⟨[], fun _ => rfl, fun _ => rfl⟩
  | cons item items ih =>
    obtain ⟨m, hm, hmholes⟩ := exists_rootTemplate .filter (h item (by simp))
    obtain ⟨ms, hms, hholes⟩ := ih fun item hitem => h item (List.mem_cons_of_mem _ hitem)
    refine ⟨(m ++ ofText (" " ++ item.direction.word)) :: ms, fun root => ?_, fun root => ?_⟩
    · have hitem : item.render ⟨.documentDB, root⟩ =
          .ok (fill root.text m ++ " " ++ item.direction.word) := by
        rw [OrderItem.render, hm root]
        rfl
      rw [List.mapM_cons, hitem, hms]
      simp [bind, Except.bind, pure, Except.pure, String.append_assoc]
    · rw [List.flatten_cons, holes_append, holes_append, holes_ofText, Nat.add_zero, hmholes root,
        hholes root, List.map_cons, nodesAll, List.countP_append]

namespace Assembler

variable {o : QueryOptions}

/-- The template of what stands behind the predicate. -/
theorem exists_tailTemplate {order : Option OrderBy}
    (h : ∀ e ∈ ((order.map OrderBy.items).getD []).map (·.expr), e.firstDefect? = none) :
    ∃ m : Template,
      (∀ root settings, IsOrderTail ⟨⟨.documentDB, root⟩, settings⟩ (fill root.text m) order) ∧
      ∀ root, holes m = (nodesAll (((order.map OrderBy.items).getD []).map (·.expr))).countP
        (isRooted ⟨.documentDB, root⟩ .filter) := by
  cases order with
  | none => exact ⟨[], fun _ _ => rfl, fun _ => rfl⟩
  | some ob =>
    have hitems : ∀ item ∈ ob.items, item.expr.firstDefect? = none :=
      fun item hitem => h item.expr (List.mem_map_of_mem hitem)
    obtain ⟨ms, hms, hholes⟩ := exists_itemTemplates hitems
    refine ⟨ofText " ORDER BY " ++ (ofText ", ").intercalate ms, fun root settings => ?_,
      fun root => ?_⟩
    · refine ⟨fill root.text ((ofText ", ").intercalate ms), ?_, by rw [fill_append, fill_ofText]⟩
      rw [OrderBy.render, hms, fill_intercalate]
      rfl
    · rw [holes_append, holes_ofText, holes_intercalate, hholes root, Nat.zero_add]
      rfl

/-- The template of the predicate. -/
theorem exists_predicateTemplate (h : ∀ e ∈ o.filter.toList, e.firstDefect? = none)
    (typeField typeName : String) :
    ∃ m : Template, (∀ root (settings : Settings), settings.typeField = typeField →
        typedPredicate ⟨⟨.documentDB, root⟩, settings⟩ o typeName = .ok (fill root.text m)) ∧
      ∀ root, holes m =
        (nodesAll o.filter.toList).countP (isRooted ⟨.documentDB, root⟩ .filter) + 1 := by
  let type : Template :=
    none :: ofText ("." ++ Text.strip typeField ++ " = '" ++ Text.upper typeName ++ "'")
  have htype : ∀ root (settings : Settings), settings.typeField = typeField →
      discriminator ⟨⟨.documentDB, root⟩, settings⟩ typeName = fill root.text type := by
    rintro root settings rfl
    simp only [type, fill_hole, fill_ofText, ← String.append_assoc]
    rfl
  have hholes : holes type = 1 := by simp [type]
  cases hfilter : o.filter with
  | none =>
    refine ⟨type, fun root settings hsettings => ?_, fun root => by rw [hholes]; rfl⟩
    rw [typedPredicate_of_none hfilter, htype root settings hsettings]
  | some e =>
    have he : e.firstDefect? = none := h e (by simp [hfilter])
    obtain ⟨m, hm, hmholes⟩ := exists_rootTemplate .filter he
    obtain ⟨s, hs⟩ := (plain.conjunct_failsAs e).exists_ok_iff.2 he
    obtain ⟨-, wrap, -, hwrap, -⟩ := conjunct_eq_ok.1 hs
    refine ⟨type ++ (ofText " AND " ++ operand wrap m), fun root settings hsettings => ?_,
      fun root => ?_⟩
    · have hconjunct : conjunct ⟨⟨.documentDB, root⟩, settings⟩ e =
          .ok (fill root.text (operand wrap m)) := by
        rw [conjunct, renderFilter, hm root]
        exact operandText_fill hwrap root.text m
      rw [typedPredicate_of_filter hfilter, hconjunct, Except.map, htype root settings hsettings,
        fill_append, fill_append, fill_ofText, String.append_assoc]
    · rw [holes_append, holes_append, hholes, holes_ofText, holes_operand, hmholes root,
        Option.toList_some, nodesAll, nodesAll, List.append_nil]
      omega

/-- The template of a typed query. -/
theorem exists_queryTemplate {typeName : String} (h : queryDefect? o typeName = none)
    (typeField : String) :
    ∃ m : Template, (∀ root (settings : Settings), settings.typeField = typeField →
        queryText ⟨⟨.documentDB, root⟩, settings⟩ o typeName = .ok (fill root.text m)) ∧
      ∀ root, holes m = (nodesAll (rendered o { filter := true, orderBy := true })).countP
        (isRooted ⟨.documentDB, root⟩ .filter) + 2 := by
  have hname : typeName ≠ "" := by
    intro hname
    simp [queryDefect?, hname] at h
  have hdefects : ∀ e ∈ rendered o { filter := true, orderBy := true }, e.firstDefect? = none := by
    simpa [queryDefect?, hname] using h
  have hrendered : rendered o { filter := true, orderBy := true } =
      o.filter.toList ++ ((o.orderBy.map OrderBy.items).getD []).map (·.expr) := rfl
  rw [hrendered] at hdefects
  obtain ⟨mp, hmp, hpholes⟩ :=
    exists_predicateTemplate (fun e he => hdefects e (List.mem_append_left _ he)) typeField typeName
  obtain ⟨mt, hmt, htholes⟩ :=
    exists_tailTemplate fun e he => hdefects e (List.mem_append_right _ he)
  refine ⟨ofText "SELECT * FROM " ++ none :: (ofText " WHERE " ++ (mp ++ mt)),
    fun root settings hsettings => ?_, fun root => ?_⟩
  · refine (queryText_eq_ok hname (hmp root settings hsettings)).2 ⟨_, hmt root settings, ?_⟩
    simp only [fill_append, fill_hole, fill_ofText, ← String.append_assoc]
    rfl
  · simp only [holes_append, holes_hole, holes_ofText, hpholes root, htholes root, hrendered,
      nodesAll_append, List.countP_append]
    omega

end Assembler

/-- An expression has no text and the same error for all root aliases, or its text is made of the
same pieces for all of them, with the alias between any two.  There is one alias for each name that
is reached from the queried document: one with a source that is missing or spelled by the empty
text, or a call with a source that is spelled by the empty text.  The same holds of a typed query,
where one more alias stands behind `FROM` and one in the predicate for the type; the pieces depend
on no setting but the name of the type field. -/
theorem alias_places :
    (∀ (mode : Mode) (e : Expr),
      (∃ err, Formatter.ForEachAlias fun _ f => e.render f mode = .error err) ∨
        ∃ pieces : List String, Formatter.ForEachAlias fun root f =>
          e.render f mode = .ok (root.intercalate pieces) ∧
            pieces.length = e.nodes.countP (isRooted f mode) + 1) ∧
      ∀ (o : QueryOptions) (typeName typeField : String),
        (∃ failure, Formatter.ForEachAlias fun _ f => ∀ settings parser feed,
          (Assembler.query ⟨f, settings⟩ parser o typeName feed).2.result = .error failure) ∨
        ∃ pieces : List String, Formatter.ForEachAlias fun root f =>
          ∀ (settings : Settings) parser feed, settings.typeField = typeField →
            (Assembler.query ⟨f, settings⟩ parser o typeName feed).2.result =
              .ok (root.intercalate pieces) ∧
            pieces.length =
              (nodesAll (Assembler.rendered o { filter := true, orderBy := true })).countP
                (isRooted f .filter) + 2 + 1 := by
  constructor
  · intro mode e
    cases hdefect : e.firstDefect? with
    | some err =>
      refine .inl ⟨err, Formatter.forEachAlias_of_root fun root => ?_⟩
      exact ((render_failsAs e).eq_error_iff err).2 hdefect
    | none =>
      obtain ⟨m, hm, hholes⟩ := exists_rootTemplate mode hdefect
      obtain ⟨pieces, hlength, hfill⟩ := exists_pieces m
      refine .inr ⟨pieces, Formatter.forEachAlias_of_root fun root => ?_⟩
      exact ⟨by rw [hm root, hfill], by rw [hlength, hholes root]⟩
  · intro o typeName typeField
    cases hfailure : Assembler.failure? o typeName with
    | some failure =>
      refine .inl ⟨failure, Formatter.forEachAlias_of_root fun root settings parser feed => ?_⟩
      exact ((Assembler.query_failsAs _ o typeName parser feed).eq_error_iff failure).2 hfailure
    | none =>
      obtain ⟨hdefect, hlimit⟩ := Option.or_eq_none_iff.1 hfailure
      obtain ⟨m, hm, hholes⟩ :=
        Assembler.exists_queryTemplate (Option.map_eq_none_iff.1 hdefect) typeField
      obtain ⟨pieces, hlength, hfill⟩ := exists_pieces m
      refine .inr ⟨pieces, Formatter.forEachAlias_of_root ?_⟩
      intro root settings parser feed hsettings
      have hpaged := (Assembler.paged_failsAs o.limit feed).exists_ok_iff.2 hlimit
      refine ⟨Assembler.query_result_eq_ok.2 ⟨?_, hpaged⟩, by rw [hlength, hholes root]⟩
      rw [hm root settings hsettings, hfill]

-- blanks inside an alias stay, and a call on the queried document itself starts with the alias
example : (Expr.func "Covers" [.prop "Area"] .it).render
    ⟨.documentDB, "my plot", by decide, by decide⟩ .filter =
    .ok ("my plot".intercalate ["", ".Covers(", ".Area)"]) := rfl

end DocQuery
