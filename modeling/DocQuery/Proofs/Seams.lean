import DocQuery.Proofs.Rendering

/-!
# Seams

Rendering joins texts in few ways: with a separator between them, or with one of them in parentheses
behind the other.  Apart from that it only drops blanks at the ends of a text, and the name of the
type before an enumeration literal.  A property of texts that gets through all of this holds of
whatever is rendered with texts that have it.

* `separators`, `ownWords`: the texts that rendering itself brings along.
* `SurvivesSeams P`: the property `P` gets through.
* `SurvivesSeams.access`, `SurvivesSeams.call`, ...: what follows for the ways of spelling
  something.
* `Expr.Rendered.survives`: a rendered text has the property.
-/

namespace DocQuery

/-- What stands between two texts. -/
def separators : List String := [" ", ".", "/", ":", ",", "="]

/-- The words and symbols of the rendered language, and no text at all. -/
def ownWords : List String :=
  ["", "null", "any", "not", "NOT", "-", "=", "!=", ">", ">=", "<", "<=", "AND", "OR"]

theorem symbol_mem_ownWords {op : BinaryOp} {symbol : String} (h : op.symbol = .ok symbol) :
    symbol ∈ ownWords := by
  cases op <;> cases h <;> decide

theorem token_mem_ownWords {op : UnaryOp} {mode : Mode} {token : String}
    (h : op.token mode = .ok token) : token ∈ ownWords := by
  cases op <;> cases mode <;> cases h <;> decide

/-- The property holds of what rendering brings along, and of whatever is made from texts that have
it. -/
structure SurvivesSeams (P : String → Prop) : Prop where
  keyword : ∀ w ∈ ownWords, P w
  separated : ∀ sep ∈ separators, ∀ s t, P s → P t → P (s ++ sep ++ t)
  enclosed : ∀ s t, P s → P t → P (s ++ parens t)
  strip : ∀ s, P s → P (Text.strip s)
  /-- What stands behind the name of its type. -/
  member : ∀ typeName member, P typeName → P (typeName ++ member) → P member

namespace SurvivesSeams

variable {P : String → Prop} (hP : SurvivesSeams P) {s t : String}

include hP

theorem parens (hs : P s) : P (parens s) := by
  have henclosed := hP.enclosed "" s (hP.keyword "" (by decide)) hs
  rwa [String.empty_append] at henclosed

theorem ite_parens (hs : P s) (wrap : Bool) : P (if wrap then DocQuery.parens s else s) := by
  split_ifs
  · exact hP.parens hs
  · exact hs

theorem intercalate {sep : String} (hsep : sep ∈ separators) {texts : List String}
    (h : ∀ t ∈ texts, P t) : P (sep.intercalate texts) := by
  induction texts with
  | nil => exact hP.keyword "" (by decide)
  | cons u texts ih =>
    have hu : P u := h u (by simp)
    cases texts with
    | nil => rwa [String.intercalate_singleton]
    | cons v texts =>
      have hrest : P (sep.intercalate (v :: texts)) :=
        ih fun t ht => h t (List.mem_cons_of_mem _ ht)
      rw [String.intercalate_cons_cons]
      exact hP.separated sep hsep u _ hu hrest

theorem call {texts : List String} (hs : P s) (h : ∀ t ∈ texts, P t) :
    P (s ++ "(" ++ ",".intercalate texts ++ ")") := by
  have hargs : P (",".intercalate texts) := hP.intercalate (by decide) h
  have hcall := hP.enclosed s _ hs hargs
  simpa [DocQuery.parens, String.append_assoc] using hcall

theorem any (hs : P s) : P (s ++ "/any()") := by
  have hempty : P "" := hP.keyword "" (by decide)
  have hany : P ("any" ++ DocQuery.parens "") :=
    hP.enclosed "any" "" (hP.keyword "any" (by decide)) hempty
  have hslash := hP.separated "/" (by decide) s _ hs hany
  rwa [String.append_assoc] at hslash

theorem lambda {kind v b : String} (hs : P s) (hkind : P kind) (hv : P v) (hb : P b) :
    P (s ++ "/" ++ kind ++ "(" ++ v ++ ":" ++ b ++ ")") := by
  have hslash : P (s ++ "/" ++ kind) := hP.separated "/" (by decide) s kind hs hkind
  have hinner : P (v ++ ":" ++ b) := hP.separated ":" (by decide) v b hv hb
  have hlambda := hP.enclosed _ _ hslash hinner
  simpa [DocQuery.parens, String.append_assoc] using hlambda

section Spelling

variable {root : RootAlias} {name : String}

theorem field (hroot : P root.text) (hname : P name) :
    P (Formatter.field ⟨.documentDB, root⟩ name) :=
  hP.separated "." (by decide) root.text _ hroot (hP.strip name hname)

theorem access (hroot : P root.text) (hs : P s) (hname : P name) :
    P (Formatter.access ⟨.documentDB, root⟩ s name) := by
  unfold Formatter.access
  split_ifs
  · exact hP.field hroot hname
  · exact hP.separated "." (by decide) _ _ (hP.strip s hs) (hP.strip name hname)

theorem constant {c : Constant} (h : ∀ t ∈ (Expr.constant c).ownTexts, P t) :
    P (c.render ⟨.documentDB, root⟩) := by
  unfold Constant.render
  split_ifs with hnull henum
  · exact hP.keyword "null" (by decide)
  · have htext : P c.text := h _ (by simp [Expr.ownTexts, hnull, henum])
    have htype : P (c.typeName.getD "") := h _ (by simp [Expr.ownTexts, hnull, henum])
    rcases Expr.enumLiteral_cases root c.text (c.typeName.getD "") with hkept | ⟨hcut, -⟩
    · rwa [hkept]
    · rw [hcut] at htext
      exact hP.member _ _ htype htext
  · exact h _ (by simp [Expr.ownTexts, hnull, henum])

end Spelling

end SurvivesSeams

namespace Expr

variable {P : String → Prop} {root : RootAlias} {mode : Mode}

theorem survives_args {name : String} {args : List Expr} {source : Expr} {kind : ResultKind}
    {texts : List String} (htexts : TextsSatisfy P (.call name args source kind))
    (hlength : args.length = texts.length) (h : ∀ p ∈ args.zip texts, p.1.TextsSatisfy P → P p.2) :
    ∀ t ∈ texts, P t := by
  obtain ⟨-, -, hargs⟩ := htexts.of_call
  refine forall_mem_of_zip hlength fun p hp => ?_
  exact h p hp (hargs p.1 (List.of_mem_zip hp).1)

/-- What survives seams holds of a rendered text, if it holds of the root alias and of every text
that the expression is rendered with. -/
theorem Rendered.survives (hP : SurvivesSeams P) {e : Expr} {s : String}
    (h : Rendered ⟨.documentDB, root⟩ mode e s) (hroot : P root.text) (htexts : e.TextsSatisfy P) :
    P s := by
  -- Each rule has its own seams; a text between two of them comes from a part, from the node itself
  -- or from the language.
  induction h with
  | constant c => exact hP.constant fun t ht => htexts.own ht
  | convert t _ ih => exact ih htexts.of_convert
  | @binary op l r symbol sl sr wl wr hop _ _ _ _ ihl ihr =>
    obtain ⟨hl, hr⟩ := htexts.of_binary
    have hleft := hP.ite_parens (ihl hl) wl
    have hright := hP.ite_parens (ihr hr) wr
    have hsymbol : P symbol := hP.keyword symbol (symbol_mem_ownWords hop)
    exact hP.separated " " (by decide) _ _ (hP.separated " " (by decide) _ _ hleft hsymbol) hright
  | @unary op e token s hop _ ih =>
    have he := ih htexts.of_unary
    have htoken : P token := hP.keyword token (token_mem_ownWords hop)
    split_ifs
    · exact hP.separated " " (by decide) token s htoken he
    · exact hP.enclosed token s htoken he
  | field how name _ => exact hP.field hroot htexts.of_access.1
  | access how name hs _ ih =>
    obtain ⟨hname, hsource⟩ := htexts.of_access
    exact hP.access hroot (ih (hsource hs)) hname
  | rangeVar name entity =>
    unfold rangeVarText
    split_ifs
    · exact hP.keyword "" (by decide)
    · exact htexts.own (by simp [ownTexts])
  | any _ _ ih => exact hP.any (ih htexts.of_any)
  | lambda kind _ _ _ ihs ihb =>
    obtain ⟨hkind, hv, hsource, hbody⟩ := htexts.of_lambda
    exact hP.lambda (ihs hsource) hkind hv (ihb hbody)
  | call name kind _ hlength _ ih =>
    obtain ⟨hname, -, -⟩ := htexts.of_call
    exact hP.call hname (survives_args htexts hlength ih)
  | boundCall name kind hs _ hlength _ ihs ih =>
    obtain ⟨hname, hsource, -⟩ := htexts.of_call
    have htarget := hP.access hroot (ihs (hsource hs)) hname
    exact hP.call htarget (survives_args htexts hlength ih)
  | @namedArg value s name _ ih =>
    obtain ⟨hname, hvalue⟩ := htexts.of_namedArg
    exact hP.separated "=" (by decide) name s hname (ih hvalue)
  | paramAlias name => exact htexts.own (by simp [ownTexts])
  | searchTerm text => exact htexts.own (by simp [ownTexts])

end Expr

end DocQuery
