import DocQuery.Proofs.Readable

/-!
# Parenthesisation

The text of a readable expression is read back as the expression: implicit conversions are gone, and
a chain of operators of one level is grouped to the left.  Between operators, the text has no
parentheses that could be left out.
-/

namespace DocQuery

namespace Expr

/-- Rendering succeeds, and reading the text gives the expression back, grouped to the left. -/
theorem read_render {f : Formatter} {mode : Mode} {e : Expr} (h : Readable f mode e) :
    ∃ s x, e.render f mode = .ok s ∧ read s = some x ∧ x.bare = (e.outline f mode).leftAssoc ∧
      x.tight 0 = true := by
  obtain ⟨s, hs, hsp⟩ := h.spells
  exact ⟨s, e.written f mode, hs, hsp.read_eq, bare_written e, tight_written e⟩

/-- `(a or not b) and (a eq (x eq 'it''s (') and Items/any(v:f(v,-1)))`, with conversions. -/
def nestedFilter : Expr :=
  .binary .and
    (.convert (.convert (.binary .or (prop "a") (.unary .not (prop "b"))) none)
      (some "Edm.Boolean"))
    (.binary .and
      (.binary .eq (prop "a") (.convert (.binary .eq (var "x") (lit (.text "it's ("))) none))
      (.quantifier .any (.convert (prop "Items") none)
        (func "f" [var "v", .unary .negate (lit (.int 1))]) (some "v")))

theorem readable_nestedFilter : Readable .default .search nestedFilter := by
  have hpath : ∀ name s, (prop name).render .default .search = .ok s → IsLeafWord s →
      Readable .default .search (prop name) := fun name s hs hw => .leaf (.word rfl hs hw)
  have hvar : ∀ name, rangeVarText name true = name → IsLeafWord name →
      Readable .default .search (var name) :=
    fun name hn hw => .leaf (.word rfl (by rw [var, render, hn]) hw)
  have hv : IsNameWord "v" := ⟨⟨by decide, by simp [isSeparator], by decide⟩, by decide, by decide⟩
  have hf : IsNameWord "f" := ⟨⟨by decide, by simp [isSeparator], by decide⟩, by decide, by decide⟩
  have ha := hpath "a" "c.a" rfl ⟨by decide, by decide, by decide⟩
  have hb := hpath "b" "c.b" rfl ⟨by decide, by decide, by decide⟩
  have hone : Readable .default .search (lit (.int 1)) :=
    .leaf (.word rfl rfl ⟨by decide, by decide, by decide⟩)
  have hitems : Leaf .default .search (prop "Items") :=
    .word rfl rfl ⟨by decide, by decide, by decide⟩
  refine .binary rfl (.convert (.convert (.binary rfl ha (.unary (.inl rfl) hb))))
    (.binary rfl (.binary rfl ha ?_) ?_)
  · exact .convert
      (.binary rfl (hvar "x" rfl ⟨by decide, by decide, by decide⟩) (.leaf (.string "it's (")))
  · refine .quantifier (.inl rfl) hitems hv (by decide) (.call hf ?_)
    intro a hmem
    simp only [List.mem_cons, List.not_mem_nil, or_false] at hmem
    rcases hmem with rfl | rfl
    · exact hvar "v" rfl ⟨by decide, by decide, by decide⟩
    · exact .unary (.inr rfl) hone

theorem read_render_nestedFilter :
    nestedFilter.render .default .search =
        .ok "(c.a OR NOT(c.b)) AND c.a = x = 'it''s (' AND c.Items/any(v:f(v,- 1))" ∧
      ∃ s x, nestedFilter.render .default .search = .ok s ∧ read s = some x ∧
        x.bare = (nestedFilter.outline .default .search).leftAssoc ∧ x.tight 0 = true :=
  ⟨rfl, read_render readable_nestedFilter⟩

end Expr

end DocQuery
