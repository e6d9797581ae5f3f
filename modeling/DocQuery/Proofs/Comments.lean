import DocQuery.Proofs.Seams
import Mathlib.Data.List.Chain

/-!
# Comments

Two dashes in a row start a comment, and a dash is also what negation is written as.  Rendering
never puts two dashes next to each other: between two texts that may end and start with one there
always is some other character.

* `CommentFree s`: no comment starts in the text `s`.
* `CommentFree.append`: where two texts meet, one of them has no dash.
* `CommentFree.survivesSeams`: no comment comes from a seam.
* `Expr.render_commentFree`: the text of an expression starts a comment only if one of the texts
  does that it is made of.
-/

namespace DocQuery

/-- No comment starts in the text: it has no two dashes in a row. -/
def CommentFree (s : String) : Prop := ¬ "--".toList <:+: s.toList

instance (s : String) : Decidable (CommentFree s) := inferInstanceAs (Decidable (¬ _))

/-- Of two neighbouring characters, one is no dash. -/
theorem commentFree_iff_isChain {s : String} :
    CommentFree s ↔ s.toList.IsChain fun c d => ¬ (c = '-' ∧ d = '-') := by
  rw [CommentFree, List.isChain_iff_forall_rel_of_append_cons_cons]
  constructor
  · rintro h c d before after hs ⟨rfl, rfl⟩
    apply h
    exact ⟨before, after, by simp [hs]⟩
  · rintro h ⟨before, after, hs⟩
    have hmark : s.toList = before ++ '-' :: '-' :: after := by simp [← hs]
    exact h hmark ⟨rfl, rfl⟩

namespace CommentFree

variable {s t : String}

/-- Two texts can stand next to each other unless a dash meets a dash. -/
theorem append (hs : CommentFree s) (ht : CommentFree t)
    (hseam : s.toList.getLast? ≠ some '-' ∨ t.toList.head? ≠ some '-') : CommentFree (s ++ t) := by
  -- Within either text the neighbours are fine, so only the pair at the seam is left.
  rw [commentFree_iff_isChain] at hs ht ⊢
  rw [String.toList_append, List.isChain_append]
  refine ⟨hs, ht, ?_⟩
  rintro c hc d hd ⟨rfl, rfl⟩
  rcases hseam with hlast | hhead
  · exact hlast hc
  · exact hhead hd

/-- A text without dashes keeps its neighbours apart. -/
theorem separated {sep : String} (hsep : '-' ∉ sep.toList) (hne : sep ≠ "") (hs : CommentFree s)
    (ht : CommentFree t) : CommentFree (s ++ sep ++ t) := by
  have hfree : CommentFree sep := by
    intro hmark
    exact hsep (hmark.subset (by decide))
  have hhead : sep.toList.head? ≠ some '-' := fun h => hsep (List.mem_of_mem_head? h)
  have hlast : sep.toList.getLast? ≠ some '-' := fun h => hsep (List.mem_of_getLast? h)
  have hfront : CommentFree (s ++ sep) := hs.append hfree (.inr hhead)
  apply hfront.append ht
  left
  rwa [String.toList_append, List.getLast?_append_of_ne_nil _ (String.toList_eq_nil_iff.not.2 hne)]

/-- No comment starts in a stretch of a text if none starts in the text. -/
theorem of_infix (hs : CommentFree s) (h : t.toList <:+: s.toList) : CommentFree t :=
  fun hmark => hs (hmark.trans h)

theorem strip (hs : CommentFree s) : CommentFree (Text.strip s) := by
  obtain ⟨front, back, htrim, -, -⟩ := Text.exists_trim s.toList
  apply hs.of_infix
  refine ⟨front, back, ?_⟩
  rw [Text.strip, String.toList_ofList]
  exact htrim.symm

theorem enclosed (hs : CommentFree s) (ht : CommentFree t) : CommentFree (s ++ parens t) := by
  have hopen : CommentFree (s ++ "(" ++ t) := hs.separated (by decide) (by decide) ht
  have hclose := hopen.append (show CommentFree ")" by decide) (.inr (by decide))
  simpa [parens, String.append_assoc] using hclose

/-- Every separator, and every parenthesis, is another character than a dash. -/
theorem survivesSeams : SurvivesSeams CommentFree where
  keyword := by decide
  separated sep hsep s t hs ht := by
    have hplain : ∀ sep ∈ separators, '-' ∉ sep.toList ∧ sep ≠ "" := by decide
    obtain ⟨hdash, hne⟩ := hplain sep hsep
    exact hs.separated hdash hne ht
  enclosed _ _ := enclosed
  strip _ := strip
  member typeName member _ h := by
    apply h.of_infix
    rw [String.toList_append]
    exact (List.suffix_append _ _).isInfix

end CommentFree

namespace Expr

variable {root : RootAlias} {mode : Mode}

/-- No comment starts in the text of an expression, if none starts in the root alias or in a text
that the expression is rendered with. -/
theorem render_commentFree {e : Expr} {s : String} (hroot : CommentFree root.text)
    (htexts : ∀ x ∈ e.visited, ∀ t ∈ x.ownTexts, CommentFree t)
    (h : e.render ⟨.documentDB, root⟩ mode = .ok s) : CommentFree s :=
  (rendered_of_render h).survives CommentFree.survivesSeams hroot htexts

/-- A root alias with a dash at each end. -/
def dashedRoot : RootAlias := ⟨"-c-", by decide, by decide⟩

/-- Negations of negations, and dashes at the ends of literals and names of all kinds. -/
def dashedSearch : Expr :=
  .binary .and
    (negation (.binary .lt (.unary .negate (.unary .negate (lit (.int (-5)))))
      (.unary .negate (prop "-Depth- " (prop " -Pool-")))))
    (anyOf (func "-near-" [lit (.int (-1)), .namedArg "-by-" (.unary .negate (lit (.int (-2))))]
      (prop "-Spots-"))
      (some "-p-") (.binary .eq (.unary .negate (var "-p-")) (.constant (.enum "Ns-" "-Red-"))))

/-- The text of that search. -/
def dashedSearchText : String :=
  "NOT(-(- -5) < -(-c-.-Pool-.-Depth-)) AND -c-.-Spots-.-near-(-1,-by-=- -2)/any(-p-:-(-p-) = '-Red-')"

theorem render_commentFree_dashedSearch :
    (∃ x ∈ dashedSearch.visited, "-near-" ∈ x.ownTexts) ∧
      dashedSearch.render ⟨.documentDB, dashedRoot⟩ .search = .ok dashedSearchText ∧
        CommentFree dashedSearchText := by
  have hnear : ∃ x ∈ dashedSearch.visited, "-near-" ∈ x.ownTexts := by decide +kernel
  have hrender : dashedSearch.render ⟨.documentDB, dashedRoot⟩ .search = .ok dashedSearchText := by
    decide +kernel
  have htexts : ∀ x ∈ dashedSearch.visited, ∀ t ∈ x.ownTexts, CommentFree t := by decide +kernel
  exact ⟨hnear, hrender, render_commentFree (by decide) htexts hrender⟩

end Expr

end DocQuery
