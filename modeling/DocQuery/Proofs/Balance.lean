import DocQuery.Proofs.Seams

/-!
# Balanced texts

A text is balanced if it closes what it opens: its quotes are even, and outside of quotes every
parenthesis that is closed is open.

* `Nesting.after`: how deep a text is nested after some characters; none if a parenthesis is closed
  that is not open.
* `Nesting.after_deeper`: characters that can be read at some depth can be read at any greater one.
* `Balanced.append`, `Balanced.parens`, `Balanced.strip`, `Balanced.of_append`: what keeps texts
  balanced.
* `Balanced.survivesSeams`: so rendering does.
* `Expr.render_balanced`: the text of an expression is balanced if the texts are that it is rendered
  with.
-/

namespace DocQuery

/-- A place in a text: inside of quotes or not, and in how many parentheses. -/
structure Nesting where
  quoted : Bool := false
  depth : Nat := 0
  deriving DecidableEq, Repr

namespace Nesting

/-- The place behind one more character.  A quote toggles a quoted stretch, in which parentheses do
not count. -/
def step (n : Nesting) (c : Char) : Option Nesting :=
  if c = '\'' then some { n with quoted := !n.quoted }
  else if n.quoted then some n
  else if c = '(' then some { n with depth := n.depth + 1 }
  else if c = ')' then if n.depth = 0 then none else some { n with depth := n.depth - 1 }
  else some n

/-- The place behind the characters. -/
def after (n : Nesting) (cs : List Char) : Option Nesting := cs.foldlM step n

theorem after_cons (n : Nesting) (c : Char) (cs : List Char) :
    n.after (c :: cs) = (n.step c).bind (·.after cs) := rfl

theorem after_append (n : Nesting) (a b : List Char) :
    n.after (a ++ b) = (n.after a).bind (·.after b) :=
  List.foldlM_append

/-- The same place inside of `k` more parentheses. -/
def deeper (n : Nesting) (k : Nat) : Nesting := { n with depth := n.depth + k }

theorem step_deeper {n n' : Nesting} {c : Char} (h : n.step c = some n') (k : Nat) :
    (n.deeper k).step c = some (n'.deeper k) := by
  have hsame : (n.deeper k).quoted = n.quoted := rfl
  unfold step at h ⊢
  rw [hsame]
  by_cases hquote : c = '\''
  · rw [if_pos hquote] at h ⊢
    cases h
    rfl
  rw [if_neg hquote] at h ⊢
  by_cases hquoted : n.quoted = true
  · rw [if_pos hquoted] at h ⊢
    cases h
    rfl
  rw [if_neg hquoted] at h ⊢
  by_cases hopen : c = '('
  · rw [if_pos hopen] at h ⊢
    cases h
    have hdepth : n.depth + k + 1 = n.depth + 1 + k := by omega
    simp only [deeper, hdepth]
  rw [if_neg hopen] at h ⊢
  by_cases hclose : c = ')'
  · rw [if_pos hclose] at h ⊢
    have hpos : n.depth ≠ 0 := by
      intro hzero
      simp [hzero] at h
    rw [if_neg hpos] at h
    cases h
    have hdepth : n.depth + k - 1 = n.depth - 1 + k := by omega
    have hpos' : n.depth + k ≠ 0 := by omega
    simp only [deeper, hdepth, hpos', if_false]
  · rw [if_neg hclose] at h ⊢
    cases h
    rfl

/-- What can be read at some depth can be read at any greater one. -/
theorem after_deeper {n n' : Nesting} {cs : List Char} (h : n.after cs = some n') (k : Nat) :
    (n.deeper k).after cs = some (n'.deeper k) := by
  induction cs generalizing n with
  | nil =>
    cases h
    rfl
  | cons c cs ih =>
    rw [after_cons] at h ⊢
    obtain ⟨n₁, hstep, hrest⟩ := Option.bind_eq_some_iff.1 h
    rw [step_deeper hstep, Option.bind_some]
    exact ih hrest

/-- Quotes and parentheses are what counts. -/
theorem after_of_forall {cs : List Char} (h : ∀ c ∈ cs, c ≠ '\'' ∧ c ≠ '(' ∧ c ≠ ')')
    (n : Nesting) : n.after cs = some n := by
  induction cs with
  | nil => rfl
  | cons c cs ih =>
    obtain ⟨hquote, hopen, hclose⟩ := h c (by simp)
    have hstep : n.step c = some n := by simp [step, hquote, hopen, hclose]
    rw [after_cons, hstep, Option.bind_some]
    exact ih fun d hd => h d (List.mem_cons_of_mem _ hd)

theorem after_blanks {cs : List Char} (h : ∀ c ∈ cs, Text.isBlank c = true) (n : Nesting) :
    n.after cs = some n := by
  refine after_of_forall (fun c hc => ?_) n
  have hblank := h c hc
  refine ⟨?_, ?_, ?_⟩ <;> rintro rfl <;> exact absurd hblank (by decide)

end Nesting

/-- The text closes what it opens: it ends outside of quotes and parentheses. -/
def Balanced (s : String) : Prop := Nesting.after {} s.toList = some {}

instance (s : String) : Decidable (Balanced s) := inferInstanceAs (Decidable (_ = _))

namespace Balanced

variable {s t : String}

/-- A balanced text can stand in any number of parentheses. -/
theorem after_eq (h : Balanced s) (d : Nat) :
    Nesting.after ⟨false, d⟩ s.toList = some ⟨false, d⟩ := by
  have hdeep := Nesting.after_deeper h d
  simpa [Nesting.deeper] using hdeep

theorem append (hs : Balanced s) (ht : Balanced t) : Balanced (s ++ t) := by
  rw [Balanced, String.toList_append, Nesting.after_append, hs, Option.bind_some]
  exact ht

/-- Behind a balanced text, what makes the whole balanced is balanced itself. -/
theorem of_append (hs : Balanced s) (hst : Balanced (s ++ t)) : Balanced t := by
  rw [Balanced, String.toList_append, Nesting.after_append, hs, Option.bind_some] at hst
  exact hst

theorem parens (h : Balanced s) : Balanced (parens s) := by
  have hopen : Nesting.after {} "(".toList = some ⟨false, 1⟩ := by decide
  have hclose : Nesting.after ⟨false, 1⟩ ")".toList = some {} := by decide
  rw [Balanced, DocQuery.parens, String.toList_append, String.toList_append, Nesting.after_append,
    Nesting.after_append, hopen, Option.bind_some, h.after_eq, Option.bind_some, hclose]

/-- Blanks at the ends stand outside of quotes, and they do not count. -/
theorem strip (h : Balanced s) : Balanced (Text.strip s) := by
  obtain ⟨front, back, hs, hfront, hback⟩ := Text.exists_trim s.toList
  rw [Balanced, Text.strip, String.toList_ofList]
  rw [Balanced, hs, Nesting.after_append, Nesting.after_append, Nesting.after_blanks hfront,
    Option.bind_some] at h
  obtain ⟨n, hn, hend⟩ := Option.bind_eq_some_iff.1 h
  rw [Nesting.after_blanks hback] at hend
  rw [hn, hend]

/-- Separators neither open nor close anything. -/
theorem survivesSeams : SurvivesSeams Balanced where
  keyword := by decide
  separated sep hsep s t hs ht := by
    have hplain : ∀ sep ∈ separators, Balanced sep := by decide
    exact (hs.append (hplain sep hsep)).append ht
  enclosed _ _ hs ht := hs.append ht.parens
  strip _ := strip
  member _ _ := of_append

end Balanced

namespace Expr

variable {root : RootAlias} {mode : Mode}

/-- Each form of expression puts balanced texts together to a balanced one. -/
theorem Rendered.balanced {e : Expr} {s : String} (h : Rendered ⟨.documentDB, root⟩ mode e s)
    (hroot : Balanced root.text) (htexts : e.TextsSatisfy Balanced) : Balanced s :=
  h.survives Balanced.survivesSeams hroot htexts

/-- The text of an expression is balanced, if the root alias is and every text is that the
expression is rendered with. -/
theorem render_balanced {e : Expr} {s : String} (hroot : Balanced root.text)
    (htexts : ∀ x ∈ e.visited, ∀ t ∈ x.ownTexts, Balanced t)
    (h : e.render ⟨.documentDB, root⟩ mode = .ok s) : Balanced s :=
  (rendered_of_render h).balanced hroot htexts

/-- A filter with quoted parentheses, an enumeration literal and a path that starts with a call. -/
def bracketedFilter : Expr :=
  .binary .and
    (.binary .or (.binary .eq (prop " Name " (func "first" [prop "Tags"]))
      (lit (.text "a) or ('b')")))
      (.binary .eq (prop "Color") (.constant (.enum "NS.Color(1)" "Red"))))
    (anyOf (prop "Parts") (some "p")
      (negation (.binary .gt (prop "Price" (var "p")) (lit (.int 5)))))

theorem render_balanced_bracketedFilter :
    bracketedFilter.render .default .filter = .ok
        ("(first(c.Tags).Name = 'a) or (''b'')' OR c.Color = 'Red') AND c.Parts/any(p:not(p.Price > 5))") ∧
      Balanced
        "(first(c.Tags).Name = 'a) or (''b'')' OR c.Color = 'Red') AND c.Parts/any(p:not(p.Price > 5))" := by
  have hrender : bracketedFilter.render .default .filter = .ok
      "(first(c.Tags).Name = 'a) or (''b'')' OR c.Color = 'Red') AND c.Parts/any(p:not(p.Price > 5))" := rfl
  have htexts : ∀ x ∈ bracketedFilter.visited, ∀ t ∈ x.ownTexts, Balanced t := by
    have hall : (bracketedFilter.visited.all fun x => x.ownTexts.all fun t => decide (Balanced t)) =
        true := rfl
    simpa [List.all_eq_true] using hall
  exact ⟨hrender, render_balanced (show Balanced RootAlias.default.text by decide) htexts hrender⟩

end Expr

end DocQuery
