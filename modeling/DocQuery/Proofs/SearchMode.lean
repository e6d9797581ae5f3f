import DocQuery.Proofs.Uniform

/-!
# Search texts

A search is written like a filter, but for the case of the word for negation.

* `Expr.Templated f e m`: in either mode, the text of `e` is the template `m` with the mode's word
  for negation in its holes, of which there is one for every negation in `e`.
* `Expr.bothModes`: the two modes as one family of renderings, in which the word for negation is
  left open.
* `Expr.search_recases_not`: the two texts differ in the letters of these words only.
-/

namespace DocQuery

namespace Expr

open Template

/-! ## Negations -/

/-- How many negations there are in the expression. -/
def negations (e : Expr) : Nat := e.nodes.countP isNegation

theorem negations_eq_zero {e : Expr} : e.negations = 0 ↔ ∀ x ∈ e.nodes, x.isNegation = false := by
  simp [negations, List.countP_eq_zero]

/-! ## The template of an expression -/

/-- In either mode, the text of `e` is the template with the word for negation in its holes; every
hole is a word, and there is one for every negation in `e`. -/
structure Templated (f : Formatter) (e : Expr) (m : Template) : Prop where
  render_eq : ∀ mode, e.render f mode = .ok (fill mode.notWord m)
  holes_eq : holes m = e.negations
  wordHoles : WordHoles m

/-- Rendering in either mode, with one root alias. -/
def bothModes (root : RootAlias) : Family Mode where
  root _ := root
  mode mode := mode
  word := Mode.notWord
  rootWord := .fixed root.text
  notWord := .hole
  isTrimmed_word mode := isTrimmed_of_strip (by cases mode <;> rfl) (by cases mode <;> decide)
  fill_rootWord _ := fill_ofText _ _
  fill_notWord mode := by simp [Word.template, fill]

/-- Every expression that has a text has a template. -/
theorem exists_template {root : RootAlias} (e : Expr) {s : String}
    (h : e.render ⟨.documentDB, root⟩ .filter = .ok s) :
    ∃ m, Templated ⟨.documentDB, root⟩ e m := by
  obtain ⟨m, hm⟩ := (bothModes root).exists_template .filter h
  have hmarks : (bothModes root).marks .filter = isNegation := by
    funext x
    simp [Family.marks, bothModes, Word.isHole]
  exact ⟨m, hm.render_eq, by rw [hm.holes_eq .filter, hmarks, negations], hm.wordHoles⟩

theorem toUpper_not : "not".toList.map Char.toUpper = "NOT".toList := by
  decide

/-- A filter and a search with the same expression fail alike, or both have a text.  The texts are
one template with `not` and `NOT` in its holes: there is a hole for every negation, and each is a
word of its own.  So the texts are equally long, they differ only where the filter has a letter of
such a word and the search has this letter in upper case, and they are equal exactly if there is no
negation. -/
theorem search_recases_not (root : RootAlias) (e : Expr) :
    let f : Formatter := ⟨.documentDB, root⟩
    (∃ err, e.renderFilter f = .error err ∧ e.renderSearch f = .error err) ∨
      ∃ (m : Template) (s t : String), e.renderFilter f = .ok s ∧ e.renderSearch f = .ok t ∧
        s = fill "not" m ∧ t = fill "NOT" m ∧ WordHoles m ∧ holes m = e.negations ∧
        s.length = t.length ∧
        (∀ i, s.toList[i]? = t.toList[i]? ∨
          ∃ before after j c, m = before ++ none :: after ∧ i = (fill "not" before).length + j ∧
            "not".toList[j]? = some c ∧ s.toList[i]? = some c ∧ t.toList[i]? = some c.toUpper) ∧
        (s = t ↔ ∀ x ∈ e.nodes, x.isNegation = false) := by
  intro f
  cases hfilter : e.render f .filter with
  | error err =>
    -- the first defect decides the error, and it does not depend on the mode
    have hsearch : e.render f .search = .error err :=
      ((render_failsAs e).eq_error_iff err).2 (((render_failsAs e).eq_error_iff err).1 hfilter)
    exact .inl ⟨err, hfilter, hsearch⟩
  | ok s =>
    obtain ⟨m, hm⟩ := exists_template e hfilter
    have hlength : "not".toList.length = "NOT".toList.length := by decide
    refine .inr ⟨m, _, _, hm.render_eq .filter, hm.render_eq .search, rfl, rfl, hm.wordHoles,
      hm.holes_eq, ?_, ?_, ?_⟩
    · rw [← String.length_toList, ← String.length_toList, toList_fill, toList_fill]
      exact length_spell hlength m
    · intro i
      simp only [toList_fill]
      rcases getElem?_spell hlength m i with heq | ⟨before, after, j, hm, hj, hi, hnot, hNOT⟩
      · exact .inl heq
      · obtain ⟨c, hc⟩ : ∃ c, "not".toList[j]? = some c := ⟨_, List.getElem?_eq_getElem hj⟩
        refine .inr ⟨before, after, j, c, hm, ?_, hc, hnot.trans hc, hNOT.trans ?_⟩
        · rw [← String.length_toList, toList_fill]
          exact hi
        · rw [← toUpper_not, List.getElem?_map, hc]
          rfl
    · rw [← negations_eq_zero, ← hm.holes_eq, ← String.toList_inj, toList_fill, toList_fill]
      exact spell_eq_iff hlength (by decide) m

-- a name with the word in it stays as it is
example :
    (negation (anyOf (prop "Tags") (some "notes") (negation (var "notes")))).renderSearch .default =
      .ok "NOT(c.Tags/any(notes:NOT(notes)))" := rfl

end Expr

end DocQuery
