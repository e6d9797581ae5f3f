import DocQuery.Proofs.Reader.Parse
import DocQuery.Render.Basic

/-!
# Readable expressions

`Readable f mode e` says that `e` is made of conditions, negations, conversions, calls and lambdas
over leaves that are written as one word.  Its text is read as a phrase (`Readable.spells`).

* `Expr.outline`: the expression as a phrase, implicit conversions left out.
* `Expr.written`: the phrase that the text of the expression is read as, with the groups that stand
  in the text.
* `Expr.bare_written`: without its groups, this is the outline with every chain of operators grouped
  to the left.
* `Expr.tight_written`: between operators, no group could be left out.
-/

namespace DocQuery

/-- The operators that a condition is made of. -/
def BinaryOp.isCondition : BinaryOp → Bool
  | .or | .and | .eq | .ne | .gt | .ge | .lt | .le => true
  | _ => false

theorem BinaryOp.symbol?_of_isCondition {op : BinaryOp} (h : op.isCondition = true) :
    ∃ symbol, op.symbol? = some symbol ∧ op.symbol = .ok symbol := by
  cases op <;> simp_all [isCondition, symbol?, symbol]

theorem BinaryOp.precedence_of_isCondition {op : BinaryOp} (h : op.isCondition = true) :
    op.precedence = .ok op.level := by
  cases op <;> simp_all [isCondition, precedence, rank?, level]

namespace Expr

/-! ## Leaves -/

/-- The text of an expression, empty if it has none. -/
def text (f : Formatter) (mode : Mode) (e : Expr) : String :=
  match e.render f mode with
  | .ok s => s
  | .error _ => ""

theorem text_of_render {f : Formatter} {mode : Mode} {e : Expr} {s : String}
    (h : e.render f mode = .ok s) : e.text f mode = s := by
  rw [text, h]

/-- Constants, paths, range variables, parameters and search terms. -/
def isLeaf : Expr → Bool
  | .constant _ | .access .. | .rangeVar .. | .paramAlias _ | .searchTerm _ => true
  | _ => false

/-- A text constant, or any other leaf that is written as one word which does not stand for an
operator. -/
inductive Leaf (f : Formatter) (mode : Mode) : Expr → Prop where
  | string (s : String) : Leaf f mode (.constant (.string s))
  | word {e : Expr} {s : String} :
      e.isLeaf = true → e.render f mode = .ok s → IsLeafWord s → Leaf f mode e

theorem isLeafWord_quoteLiteral (s : String) : IsLeafWord (Text.quoteLiteral s) := by
  refine isLeafWord_of_mem (c := '\'') (by simp) (by simp) ?_
  rw [Text.toList_quoteLiteral, isOneWord, if_pos rfl]
  exact isOneWord_doubleQuotes s.toList

/-- Every leaf is written as one word. -/
theorem Leaf.render_eq {f : Formatter} {mode : Mode} {e : Expr} (h : Leaf f mode e) :
    ∃ s, e.render f mode = .ok s ∧ IsLeafWord s ∧ e.isLeaf = true := by
  cases h with
  | string s => exact ⟨Text.quoteLiteral s, by rw [render]; rfl, isLeafWord_quoteLiteral s, rfl⟩
  | word he hs hw => exact ⟨_, hs, hw, he⟩

/-! ## The fragment -/

/-- The expressions that a reader of conditions understands. -/
inductive Readable (f : Formatter) (mode : Mode) : Expr → Prop where
  | leaf {e : Expr} : Leaf f mode e → Readable f mode e
  | convert {e : Expr} {t : Option String} : Readable f mode e → Readable f mode (.convert e t)
  | binary {op : BinaryOp} {l r : Expr} :
      op.isCondition = true → Readable f mode l → Readable f mode r →
      Readable f mode (.binary op l r)
  | unary {op : UnaryOp} {e : Expr} :
      op = .not ∨ op = .negate → Readable f mode e → Readable f mode (.unary op e)
  | call {name : String} {args : List Expr} {kind : ResultKind} : IsNameWord name →
      (∀ a ∈ args, Readable f mode a) → Readable f mode (.call name args .missing kind)
  | quantifier {kind : QuantifierKind} {source body : Expr} {v : String} :
      kind = .any ∨ kind = .all → Leaf f mode source.unwrap → IsNameWord v →
      Text.isBlankText v = false → Readable f mode body →
      Readable f mode (.quantifier kind source body (some v))

end Expr

/-- The phrase as an operand of `op`, in a group if it holds less tightly. -/
def Phrase.enclose (op : BinaryOp) (x : Phrase) : Phrase :=
  if x.level < op.level then .group x else x

namespace Expr

/-! ## As a phrase -/

section Phrases

variable (f : Formatter) (mode : Mode)

mutual

/-- The expression as a phrase, without implicit conversions; leaves are words. -/
def outline : Expr → Phrase
  | .convert source _ => source.outline
  | .binary op left right => .binary op left.outline right.outline
  | .unary op operand => .unary op operand.outline
  | .call name args _ _ => .call name (outlineAll args)
  | .quantifier kind source body var => .lambda (source.text f mode) kind (var.getD "") body.outline
  | e => .word (e.text f mode)

/-- The expressions as phrases. -/
def outlineAll : List Expr → List Phrase
  | [] => []
  | e :: es => e.outline :: outlineAll es

end

mutual

/-- The phrase that the text of an expression is read as. -/
def written : Expr → Phrase
  | .convert source _ => source.written
  | .binary op left right => Phrase.graft op (.enclose op left.written) (.enclose op right.written)
  | .unary op operand =>
    .unary op (if operand.isAtomic then operand.written else .group operand.written)
  | .call name args _ _ => .call name (writtenAll args)
  | .quantifier kind source body var => .lambda (source.text f mode) kind (var.getD "") body.written
  | e => .word (e.text f mode)

/-- The phrases that the texts of expressions are read as. -/
def writtenAll : List Expr → List Phrase
  | [] => []
  | e :: es => e.written :: writtenAll es

end

end Phrases

variable {f : Formatter} {mode : Mode}

theorem written_of_isLeaf {e : Expr} (h : e.isLeaf = true) :
    e.written f mode = .word (e.text f mode) := by
  cases e <;> simp_all [isLeaf, written]

theorem written_unwrap (e : Expr) : e.unwrap.written f mode = e.written f mode := by
  induction e with
  | convert source t ih => rw [unwrap, ih, written]
  | _ => rfl

theorem render_unwrap (e : Expr) : e.unwrap.render f mode = e.render f mode := by
  induction e with
  | convert source t ih => rw [unwrap, ih, render]
  | _ => rfl

theorem unwrap_ne_convert (e source : Expr) (t : Option String) : e.unwrap ≠ .convert source t := by
  induction e with
  | convert source' t' ih => rw [unwrap]; exact ih
  | _ => simp [unwrap]

theorem unwrap_of_isLeaf {e : Expr} (h : e.isLeaf = true) : e.unwrap = e := by
  cases e <;> simp_all [isLeaf, unwrap]

theorem Readable.unwrap {e : Expr} (h : Readable f mode e) : Readable f mode e.unwrap := by
  induction h with
  | convert _ ih => rw [Expr.unwrap]; exact ih
  | leaf hl =>
    obtain ⟨_, _, _, hleaf⟩ := hl.render_eq
    rw [unwrap_of_isLeaf hleaf]
    exact .leaf hl
  | binary hop hl hr => exact .binary hop hl hr
  | unary hop he => exact .unary hop he
  | call hn ha => exact .call hn ha
  | quantifier hk hs hv hb hbody => exact .quantifier hk hs hv hb hbody

theorem Readable.of_binary {op : BinaryOp} {l r : Expr} (h : Readable f mode (.binary op l r)) :
    op.isCondition = true ∧ Readable f mode l ∧ Readable f mode r := by
  cases h with
  | binary hop hl hr => exact ⟨hop, hl, hr⟩
  | leaf hleaf =>
    obtain ⟨_, _, _, hl⟩ := hleaf.render_eq
    exact absurd hl (by simp [isLeaf])

/-! ## Parentheses -/

/-- Parentheses are put around an operand exactly if it holds less tightly than the operator. -/
theorem Readable.needsParens_eq {e : Expr} (h : Readable f mode e) {op : BinaryOp}
    (hop : op.isCondition = true) :
    needsParens e op = .ok (decide ((e.written f mode).level < op.level)) := by
  have hlevel := op.level_le_three
  have hu := h.unwrap
  rw [needsParens, ← written_unwrap]
  cases hue : e.unwrap with
  | convert source t => exact absurd hue (unwrap_ne_convert e source t)
  | binary op' l r =>
    rw [hue] at hu
    simp only [BinaryOp.precedence_of_isCondition hop,
      BinaryOp.precedence_of_isCondition hu.of_binary.1, written, Phrase.level_graft]
    rfl
  | _ =>
    rw [decide_eq_false (by simp only [written, Phrase.level]; omega)]
    rfl

/-- An operand as it is written is read as the enclosed phrase, which holds tightly enough. -/
theorem Readable.operandText_eq {e : Expr} (h : Readable f mode e) {op : BinaryOp}
    (hop : op.isCondition = true) {s : String} (hs : Spells s (e.written f mode)) :
    ∃ t, operandText e op s = .ok t ∧ Spells t (.enclose op (e.written f mode)) ∧
      op.level ≤ (Phrase.enclose op (e.written f mode)).level := by
  have hlevel := op.level_le_three
  by_cases hlt : (e.written f mode).level < op.level
  · refine ⟨parens s, ?_, ?_, ?_⟩
    · rw [operandText, h.needsParens_eq hop, decide_eq_true hlt]; rfl
    · rw [Phrase.enclose, if_pos hlt]; exact (spellsAtom_parens hs).spells
    · rw [Phrase.enclose, if_pos hlt]; simp only [Phrase.level]; omega
  · refine ⟨s, ?_, ?_, ?_⟩
    · rw [operandText, h.needsParens_eq hop, decide_eq_false hlt]; rfl
    · rw [Phrase.enclose, if_neg hlt]; exact hs
    · rw [Phrase.enclose, if_neg hlt]; omega

/-! ## Reading the text -/

/-- What is written without parentheses behind a unary operator is one word. -/
theorem Readable.spellsAtom {e : Expr} (h : Readable f mode e) (ha : e.isAtomic = true) :
    ∃ s, e.render f mode = .ok s ∧ SpellsAtom s (e.written f mode) := by
  cases h with
  | leaf hl =>
    obtain ⟨s, hs, hw, hleaf⟩ := hl.render_eq
    refine ⟨s, hs, ?_⟩
    rw [written_of_isLeaf hleaf, text_of_render hs]
    exact spellsAtom_word hw
  | _ => simp [isAtomic] at ha

theorem token_of_not_or_negate {op : UnaryOp} (h : op = .not ∨ op = .negate) (mode : Mode) :
    ∃ token, op.token mode = .ok token ∧ UnaryOp.ofSymbol? token = some op := by
  rcases h with rfl | rfl
  · cases mode <;> exact ⟨_, rfl, rfl⟩
  · exact ⟨_, rfl, rfl⟩

theorem renderAll_spells {args : List Expr}
    (h : ∀ a ∈ args, ∃ s, a.render f mode = .ok s ∧ Spells s (a.written f mode)) :
    ∃ texts, renderAll f mode args = .ok texts ∧
      List.Forall₂ Spells texts (writtenAll f mode args) := by
  induction args with
  | nil => exact ⟨[], rfl, .nil⟩
  | cons a args ih =>
    obtain ⟨s, hs, hsp⟩ := h a (by simp)
    obtain ⟨texts, ht, htp⟩ := ih (fun b hb => h b (List.mem_cons_of_mem _ hb))
    refine ⟨s :: texts, ?_, ?_⟩
    · rw [renderAll, hs, ht]; rfl
    · rw [writtenAll]; exact .cons hsp htp

/-- The text of a readable expression is read as `written` says. -/
theorem Readable.spells {e : Expr} (h : Readable f mode e) :
    ∃ s, e.render f mode = .ok s ∧ Spells s (e.written f mode) := by
  induction h with
  | leaf hl =>
    obtain ⟨s, hs, hw, hleaf⟩ := hl.render_eq
    refine ⟨s, hs, ?_⟩
    rw [written_of_isLeaf hleaf, text_of_render hs]
    exact (spellsAtom_word hw).spells
  | convert _ ih =>
    rw [render, written]
    exact ih
  | binary hop hl hr ihl ihr =>
    obtain ⟨sl, hsl, hspl⟩ := ihl
    obtain ⟨sr, hsr, hspr⟩ := ihr
    obtain ⟨tl, htl, htpl, hlevl⟩ := hl.operandText_eq hop hspl
    obtain ⟨tr, htr, htpr, hlevr⟩ := hr.operandText_eq hop hspr
    obtain ⟨symbol, hsym, hsym'⟩ := BinaryOp.symbol?_of_isCondition hop
    refine ⟨tl ++ " " ++ symbol ++ " " ++ tr, ?_, ?_⟩
    · simp only [render, hsym', hsl, htl, hsr, htr, bind, Except.bind]
      rfl
    · rw [written]
      exact spells_binary hsym htpl htpr hlevl hlevr
  | @unary op e hop he ih =>
    obtain ⟨token, htok, hsym⟩ := token_of_not_or_negate hop mode
    by_cases ha : e.isAtomic = true
    · obtain ⟨s, hs, hsp⟩ := he.spellsAtom ha
      refine ⟨token ++ " " ++ s, ?_, ?_⟩
      · simp only [render, htok, hs, if_pos ha]
        rfl
      · rw [written, if_pos ha]
        exact spells_unary hsym hsp
    · obtain ⟨s, hs, hsp⟩ := ih
      refine ⟨token ++ parens s, ?_, ?_⟩
      · simp only [render, htok, hs, if_neg ha]
        rfl
      · rw [written, if_neg ha]
        exact spells_unary_parens hsym hsp
  | @call name args kind hname _ ih =>
    obtain ⟨texts, ht, htp⟩ := renderAll_spells ih
    refine ⟨name ++ "(" ++ ",".intercalate texts ++ ")", ?_, ?_⟩
    · simp only [render, ht]
      rfl
    · rw [written]
      exact (spellsAtom_call hname htp).spells
  | @quantifier kind source body v hkind hsource hv hblank _ ih =>
    obtain ⟨s, hs, hw, _⟩ := hsource.render_eq
    rw [render_unwrap] at hs
    obtain ⟨b, hb, hbp⟩ := ih
    refine ⟨s ++ "/" ++ kind.name ++ "(" ++ v ++ ":" ++ b ++ ")", ?_, ?_⟩
    · simp only [render, boundName, hblank, hs, hb]
      rfl
    · rw [written, text_of_render hs]
      exact (spellsAtom_lambda hw hkind hv hbp).spells

/-! ## Groups -/

theorem tight_enclose {op : BinaryOp} {x : Phrase} (h : x.tight 0 = true) :
    (Phrase.enclose op x).tight op.level = true := by
  by_cases hlt : x.level < op.level
  · simp [Phrase.enclose, hlt, Phrase.tight, h]
  · rw [Phrase.enclose, if_neg hlt]
    exact Phrase.tight_mono (Nat.zero_le _) h

theorem bare_enclose (op : BinaryOp) (x : Phrase) : (Phrase.enclose op x).bare = x.bare := by
  by_cases hlt : x.level < op.level
  · rw [Phrase.enclose, if_pos hlt, Phrase.bare]
  · rw [Phrase.enclose, if_neg hlt]

/-- Between operators, no group could be left out. -/
theorem tight_written (e : Expr) : (e.written f mode).tight 0 = true := by
  induction e with
  | convert source t ih => rw [written]; exact ih
  | binary op l r ihl ihr =>
    rw [written]; exact Phrase.tight_graft 0 (tight_enclose ihl) (tight_enclose ihr)
  | unary op e ih =>
    rw [written, Phrase.tight]
    by_cases ha : e.isAtomic = true
    · rw [if_pos ha]
      exact Phrase.tight_mono (Nat.zero_le _) ih
    · have hlevel := (e.written f mode).level_le_five
      rw [if_neg ha, Phrase.tight, ih, decide_eq_true (by omega)]
      rfl
  | call name args source kind ih _ =>
    rw [written, Phrase.tight]
    induction args with
    | nil => rfl
    | cons a args ihargs =>
      rw [writtenAll, Phrase.tightAll, ih a (by simp),
        ihargs (fun b hb => ih b (List.mem_cons_of_mem _ hb))]
      rfl
  | quantifier kind source body v _ ih => rw [written, Phrase.tight]; exact ih
  | _ => rfl

/-- Without its groups, the text is read as the expression with every chain of operators grouped to
the left. -/
theorem bare_written (e : Expr) : (e.written f mode).bare = (e.outline f mode).leftAssoc := by
  induction e with
  | convert source t ih => rw [written, outline]; exact ih
  | binary op l r ihl ihr =>
    rw [written, outline, Phrase.leftAssoc, Phrase.bare_graft _ (tight_enclose (tight_written r)),
      bare_enclose, bare_enclose, ihl, ihr]
  | unary op e ih =>
    rw [written, outline, Phrase.leftAssoc, Phrase.bare]
    by_cases ha : e.isAtomic = true
    · rw [if_pos ha, ih]
    · rw [if_neg ha, Phrase.bare, ih]
  | call name args source kind ih _ =>
    rw [written, outline, Phrase.leftAssoc, Phrase.bare]
    congr 1
    induction args with
    | nil => rfl
    | cons a args ihargs =>
      rw [writtenAll, outlineAll, Phrase.bareAll, Phrase.leftAssocAll, ih a (by simp),
        ihargs (fun b hb => ih b (List.mem_cons_of_mem _ hb))]
  | quantifier kind source body v _ ih => rw [written, outline, Phrase.leftAssoc, Phrase.bare, ih]
  | _ => rfl

end Expr

end DocQuery
