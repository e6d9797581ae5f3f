import DocQuery.Proofs.FirstDefect
import DocQuery.Proofs.Literal
import DocQuery.Proofs.Rendering

/-!
# Checking without interfering

A finished text may be handed to an SQL parser, and whatever the parser makes of it, the operation
is as without.

* `Marked s`: the beginning of a lambda operator stands in the text `s`.
* `Expr.HasLambda.marked`: a lambda anywhere in an expression leaves its mark in the text.
* `Checked`: what an operation with the check is like, compared to the same operation without.
* `Assembler.check_passive`: this holds of typed queries and of chosen clauses.
-/

namespace DocQuery

/-! ## Marks -/

theorem containsText_iff {part cs : List Char} : containsText part cs = true ↔ part <:+: cs := by
  induction cs with
  | nil => simp [containsText]
  | cons c cs ih =>
    rw [containsText, Bool.or_eq_true, List.isPrefixOf_iff_prefix, ih, List.infix_cons_iff]

/-- The beginning of a lambda operator stands in the text. -/
def Marked (s : String) : Prop := ∃ m ∈ lambdaMarkers, m.toList <:+: s.toList

theorem hasLambda_iff {s : String} : hasLambda s = true ↔ Marked s := by
  simp only [hasLambda, List.any_eq_true, containsText_iff, Marked]

namespace Marked

variable {s t : String}

theorem of_infix (h : Marked s) (hst : s.toList <:+: t.toList) : Marked t := by
  obtain ⟨m, hm, hinfix⟩ := h
  exact ⟨m, hm, hinfix.trans hst⟩

theorem of_start (h : Marked s) (hst : s.toList <+: t.toList) : Marked t := h.of_infix hst.isInfix

theorem append_right (h : Marked s) (t : String) : Marked (s ++ t) := h.of_start (by simp)

theorem append_left (h : Marked t) (s : String) : Marked (s ++ t) :=
  h.of_infix (by rw [String.toList_append]; exact (List.suffix_append _ _).isInfix)

theorem ne_empty (h : Marked s) : s ≠ "" := by
  rintro rfl
  obtain ⟨m, hm, hinfix⟩ := h
  have hne : ∀ m ∈ lambdaMarkers, m.toList ≠ [] := by decide
  exact hne m hm (List.infix_nil.1 hinfix)

theorem parens (h : Marked s) : Marked (parens s) := (h.append_left "(").append_right ")"

theorem ite_parens (h : Marked s) (wrap : Bool) :
    Marked (if wrap then DocQuery.parens s else s) := by
  cases wrap with
  | false => exact h
  | true => exact h.parens

theorem intercalate {texts : List String} (ht : t ∈ texts) (h : Marked t) (sep : String) :
    Marked (sep.intercalate texts) := by
  induction texts with
  | nil => simp at ht
  | cons u texts ih =>
    cases texts with
    | nil =>
      rw [List.mem_singleton] at ht
      rwa [String.intercalate_singleton, ← ht]
    | cons v texts =>
      rw [String.intercalate_cons_cons]
      rcases List.mem_cons.1 ht with rfl | ht
      · exact (h.append_right _).append_right _
      · exact (ih ht).append_left _

end Marked

/-- A stretch without blanks stays when blanks are dropped at the front. -/
theorem infix_dropWhile {w cs : List Char} (hw : ∀ c ∈ w, Text.isBlank c = false) (h : w <:+: cs) :
    w <:+: cs.dropWhile Text.isBlank := by
  obtain ⟨a, b, rfl⟩ := h
  induction a with
  | nil =>
    cases w with
    | nil => exact List.nil_infix
    | cons c w =>
      have hc : Text.isBlank c = false := hw c (by simp)
      simp only [List.nil_append, List.cons_append, List.dropWhile_cons, hc, Bool.false_eq_true,
        if_false]
      exact ⟨[], b, rfl⟩
  | cons d a ih =>
    rw [List.cons_append, List.cons_append, List.dropWhile_cons]
    split
    · exact ih
    · exact ⟨d :: a, b, rfl⟩

theorem infix_trim {w cs : List Char} (hw : ∀ c ∈ w, Text.isBlank c = false) (h : w <:+: cs) :
    w <:+: Text.trim cs := by
  have hfront := infix_dropWhile hw h
  have hback := infix_dropWhile (w := w.reverse) (by simpa using hw) (List.reverse_infix.2 hfront)
  rw [Text.trim, Text.trimEnd]
  exact List.reverse_infix.1 (by simpa using hback)

theorem Marked.strip {s : String} (h : Marked s) : Marked (Text.strip s) := by
  obtain ⟨m, hm, hinfix⟩ := h
  have hink : ∀ m ∈ lambdaMarkers, ∀ c ∈ m.toList, Text.isBlank c = false := by
    have hall : lambdaMarkers.all (fun m => m.toList.all (!Text.isBlank ·)) = true := rfl
    simpa using hall
  refine ⟨m, hm, ?_⟩
  rw [Text.strip, String.toList_ofList]
  exact infix_trim (hink m hm) hinfix

theorem Marked.access {t : String} (h : Marked t) (root : RootAlias) (name : String) :
    Marked (Formatter.access ⟨.documentDB, root⟩ t name) := by
  rw [Formatter.access, if_neg h.ne_empty]
  exact (h.strip.append_right ".").append_right (Text.strip name)

namespace Expr

/-! ## Lambdas -/

/-- Is the expression a quantifier `any` or `all`? -/
def isLambda : Expr → Bool
  | .quantifier .any .. | .quantifier .all .. => true
  | _ => false

/-- A lambda stands somewhere in the expression. -/
def HasLambda (e : Expr) : Prop := ∃ x ∈ e.nodes, x.isLambda = true

theorem hasLambda_binary {op : BinaryOp} {l r : Expr} :
    HasLambda (.binary op l r) ↔ l.HasLambda ∨ r.HasLambda := by
  simp [HasLambda, nodes, isLambda, or_and_right, exists_or]

theorem hasLambda_quantifier {kind : QuantifierKind} {source body : Expr} {var : Option String} :
    HasLambda (.quantifier kind source body var) ↔
      kind = .any ∨ kind = .all ∨ source.HasLambda ∨ body.HasLambda := by
  cases kind <;> simp [HasLambda, nodes, isLambda, or_and_right, exists_or]

theorem hasLambda_access {how : Access} {name : String} {source : Expr} :
    HasLambda (.access how name source) ↔ source.isMissing = false ∧ source.HasLambda := by
  cases hs : source.isMissing <;> simp [HasLambda, nodes, isLambda, hs]

theorem hasLambda_call {name : String} {args : List Expr} {source : Expr} {kind : ResultKind} :
    HasLambda (.call name args source kind) ↔
      source.isMissing = false ∧ source.HasLambda ∨ ∃ a ∈ args, a.HasLambda := by
  have hargs : (∃ x, (∃ e ∈ args, x ∈ e.nodes) ∧ x.isLambda = true) ↔ ∃ a ∈ args, a.HasLambda := by
    constructor
    · rintro ⟨x, ⟨a, ha, hx⟩, hl⟩
      exact ⟨a, ha, x, hx, hl⟩
    · rintro ⟨a, ha, x, hx, hl⟩
      exact ⟨x, ⟨a, ha, hx⟩, hl⟩
  rw [← hargs]
  cases hs : source.isMissing <;>
    simp [HasLambda, nodes, isLambda, hs, mem_nodesAll, or_and_right, exists_or]

theorem marked_quantifier {kind : QuantifierKind} (h : kind = .any ∨ kind = .all)
    (t rest : String) : Marked (t ++ ("/" ++ kind.name ++ "(" ++ rest)) := by
  refine ⟨"/" ++ kind.name ++ "(", ?_, t.toList, rest.toList, by simp⟩
  rcases h with rfl | rfl <;> decide

/-- A lambda anywhere in an expression leaves its mark in the text. -/
theorem HasLambda.marked {root : RootAlias} {mode : Mode} {e : Expr} {s : String} (hl : e.HasLambda)
    (h : e.render ⟨.documentDB, root⟩ mode = .ok s) : Marked s := by
  induction e generalizing s with
  | convert source t ih =>
    rw [render] at h
    exact ih (by simpa [HasLambda, nodes, isLambda] using hl) h
  | binary op l r ihl ihr =>
    obtain ⟨symbol, sl, wl, sr, wr, -, hsl, -, hsr, -, rfl⟩ := render_binary_eq_ok.1 h
    rcases hasLambda_binary.1 hl with hl | hl
    · exact ((ihl hl hsl).ite_parens wl).of_start
        (by simp only [String.toList_append, List.append_assoc, List.prefix_append])
    · exact ((ihr hl hsr).ite_parens wr).append_left _
  | unary op e ih =>
    obtain ⟨token, t, -, ht, rfl⟩ := render_unary_eq_ok.1 h
    have hm : Marked t := ih (by simpa [HasLambda, nodes, isLambda] using hl) ht
    split
    · exact hm.append_left _
    · exact hm.parens.append_left _
  | access how name source ih =>
    obtain ⟨hs, hl⟩ := hasLambda_access.1 hl
    rcases render_access_eq_ok.1 h with ⟨hmissing, -⟩ | ⟨-, t, ht, rfl⟩
    · rw [hs] at hmissing
      cases hmissing
    · exact (ih hl ht).access root name
  | quantifier kind source body var ihs ihb =>
    by_cases hany : kind = .any ∧ var = none
    · obtain ⟨rfl, rfl⟩ := hany
      obtain ⟨-, t, -, rfl⟩ := render_any_eq_ok.1 h
      exact marked_quantifier (.inl rfl) t ")"
    · obtain ⟨v, t, b, -, -, ht, hb, rfl⟩ := (render_quantifier_eq_ok hany).1 h
      rcases hasLambda_quantifier.1 hl with hkind | hkind | hl | hl
      · simpa [String.append_assoc] using marked_quantifier (.inl hkind) t (v ++ ":" ++ b ++ ")")
      · simpa [String.append_assoc] using marked_quantifier (.inr hkind) t (v ++ ":" ++ b ++ ")")
      · exact (ihs hl ht).of_start
          (by simp only [String.toList_append, List.append_assoc, List.prefix_append])
      · exact ((ihb hl hb).append_left _).append_right _
  | call name args source kind ihargs ihs =>
    obtain ⟨target, texts, htarget, htexts, rfl⟩ := render_call_eq_ok.1 h
    rcases hasLambda_call.1 hl with ⟨hs, hl⟩ | ⟨a, ha, hl⟩
    · rcases htarget with ⟨hmissing, -⟩ | ⟨-, t, ht, rfl⟩
      · rw [hs] at hmissing
        cases hmissing
      · exact ((ihs hl ht).access root name).of_start
          (by simp only [String.toList_append, List.append_assoc, List.prefix_append])
    · obtain ⟨t, ht, hat⟩ := exists_of_mem_forall₂ (renderAll_eq_ok.1 htexts) ha
      exact ((Marked.intercalate ht (ihargs a ha hl hat) ",").append_left _).append_right _
  | namedArg name value ih =>
    obtain ⟨t, ht, rfl⟩ := render_namedArg_eq_ok.1 h
    exact (ih (by simpa [HasLambda, nodes, isLambda] using hl) ht).append_left _
  | _ => simp [HasLambda, nodes, isLambda] at hl

end Expr

/-! ## Whole queries and parts of them -/

theorem startsWithSelect_append {w : String} {c : Char} (hw : w.toList.head? = some c)
    (hc : Text.isBlank c = false) (rest : String) :
    startsWithSelect (w ++ rest) =
      "SELECT".toList.isPrefixOf ((Text.upper w).toList ++ (Text.upper rest).toList) := by
  obtain ⟨cs, hcs⟩ := List.head?_eq_some_iff.1 hw
  have hstart : Text.stripStart (w ++ rest) = w ++ rest := by
    rw [Text.stripStart, String.toList_append, hcs, List.cons_append, List.dropWhile_cons,
      if_neg (by simp [hc]), ← List.cons_append, ← hcs, ← String.toList_append,
      String.ofList_toList]
  rw [startsWithSelect, hstart, Text.toList_upper, String.toList_append, List.flatMap_append,
    Text.toList_upper, Text.toList_upper]

/-- The text is a whole query, or it is a part of one. -/
def HasShape (whole : Bool) (sql : String) : Prop :=
  if whole then ∃ rest, sql = "SELECT " ++ rest
  else ∃ rest, sql = "WHERE " ++ rest ∨ sql = "ORDER BY " ++ rest

/-- A part of a query is completed to a query, and a whole one is parsed as it is. -/
theorem HasShape.statementFor {whole : Bool} {sql : String} (h : HasShape whole sql)
    (root : String) :
    statementFor root sql = if whole then sql else "SELECT * FROM " ++ root ++ " " ++ sql := by
  rw [DocQuery.statementFor]
  cases whole with
  | true =>
    obtain ⟨rest, rfl⟩ := h
    rw [startsWithSelect_append (c := 'S') rfl rfl]
    rfl
  | false =>
    obtain ⟨rest, rfl | rfl⟩ := h
    · rw [startsWithSelect_append (c := 'W') rfl rfl]
      rfl
    · rw [startsWithSelect_append (c := 'O') rfl rfl]
      rfl

theorem HasShape.select_start {whole : Bool} {sql : String} (h : HasShape whole sql)
    (root : String) : "SELECT ".toList <+: (DocQuery.statementFor root sql).toList := by
  rw [h.statementFor]
  cases whole with
  | true =>
    obtain ⟨rest, rfl⟩ := h
    simp
  | false =>
    refine ⟨("* FROM " ++ root ++ " " ++ sql).toList, ?_⟩
    simp

/-! ## With and without the check -/

/-- What an operation with the check is like, compared to the same operation without: it has the
same result, and it has its text parsed once, unless there is none, it is empty or a lambda is
marked in it.  The statement that is parsed is the text itself if that is a whole query, and a query
completed with it otherwise. -/
structure Checked {ε : Type} (root : RootAlias) (whole : Bool) (lambda : Prop)
    (on off : Attempt ε String) : Prop where
  result_eq : on.result = off.result
  parsed_once : on.parsed.length ≤ 1
  parsed_eq_nil : on.parsed = [] ↔ ∀ sql, on.result = .ok sql → sql = "" ∨ hasLambda sql = true
  not_lambda : lambda → on.parsed = []
  statement : ∀ st ∈ on.parsed, ∃ sql, on.result = .ok sql ∧
    st = (if whole then sql else "SELECT * FROM " ++ root.text ++ " " ++ sql) ∧
    "SELECT ".toList <+: st.toList

namespace Assembler

theorem finish_parsed {a : Assembler} (ha : a.settings.validateSql = true) (parser : SqlParser)
    (sql : String) :
    (a.finish parser sql).parsed =
      if sql = "" ∨ hasLambda sql = true then [] else [statementFor a.formatter.aliasText sql] := by
  rw [finish]
  by_cases hsql : sql = ""
  · simp [hsql]
  · by_cases hl : hasLambda sql = true <;> simp [hsql, ha, checkSql, hl]

/-- Finishing a text with the check and without. -/
theorem checked_settle {ε : Type} {on off : Assembler} {root : RootAlias} {whole : Bool}
    {lambda : Prop} {text : Except ε String} (hon : on.settings.validateSql = true)
    (hroot : on.formatter.root = root)
    (hshape : ∀ sql, text = .ok sql → sql ≠ "" → HasShape whole sql)
    (hlambda : lambda → ∀ sql, text = .ok sql → Marked sql) (parser parser' : SqlParser)
    (entries entries' : List LogEntry) :
    Checked root whole lambda ((on.settle parser text).after entries)
      ((off.settle parser' text).after entries') := by
  have hresult : ((on.settle parser text).after entries).result = text := settle_result parser text
  have hresult' : ((off.settle parser' text).after entries').result = text :=
    settle_result parser' text
  cases text with
  | error e =>
    have hparsed : ((on.settle parser (.error e)).after entries).parsed = [] := rfl
    exact ⟨hresult.trans hresult'.symm,
      by simp [hparsed], by simp [hparsed, hresult], fun _ => hparsed, by simp [hparsed]⟩
  | ok sql =>
    have hparsed : ((on.settle parser (.ok sql : Except ε String)).after entries).parsed =
        if sql = "" ∨ hasLambda sql = true then [] else [statementFor root.text sql] := by
      rw [← hroot]
      exact finish_parsed hon parser sql
    by_cases hsql : sql = "" ∨ hasLambda sql = true
    · rw [if_pos hsql] at hparsed
      exact ⟨hresult.trans hresult'.symm,
        by simp [hparsed], by simpa [hparsed, hresult] using hsql, fun _ => hparsed, by
        simp [hparsed]⟩
    · rw [if_neg hsql] at hparsed
      have hs := hshape sql rfl fun hempty => hsql (.inl hempty)
      refine ⟨hresult.trans hresult'.symm,
        by simp [hparsed], by simpa [hparsed, hresult] using hsql, fun hl => ?_, ?_⟩
      · exact absurd (.inr (hasLambda_iff.2 (hlambda hl sql rfl))) hsql
      · intro st hst
        rw [hparsed, List.mem_singleton] at hst
        exact ⟨sql, hresult, hst.trans (hs.statementFor _), hst ▸ hs.select_start _⟩

section Clauses

variable {root : RootAlias} {settings : Settings} {o : QueryOptions}

theorem marked_order {ob : OrderBy} {t : String} (h : ob.render ⟨.documentDB, root⟩ = .ok t)
    {item : OrderItem} (hitem : item ∈ ob.items) (hl : item.expr.HasLambda) : Marked t := by
  obtain ⟨texts, htexts, rfl⟩ := OrderBy.render_eq_ok.1 h
  obtain ⟨u, hu, hrender⟩ := exists_of_mem_forall₂ htexts hitem
  obtain ⟨v, hv, rfl⟩ := OrderItem.render_eq_ok.1 hrender
  exact .intercalate hu (((hl.marked hv).append_right _).append_right _) _

theorem marked_conjunct {e : Expr} {s : String}
    (h : conjunct ⟨⟨.documentDB, root⟩, settings⟩ e = .ok s) (hl : e.HasLambda) : Marked s := by
  obtain ⟨t, wrap, ht, -, rfl⟩ := conjunct_eq_ok.1 h
  exact (hl.marked ht).ite_parens wrap

theorem marked_predicates {e : Expr} (he : o.filter = some e) (hl : e.HasLambda)
    {extra : Option String} {ps : List String}
    (h : predicates ⟨⟨.documentDB, root⟩, settings⟩ o extra = .ok ps) : ∃ p ∈ ps, Marked p := by
  obtain ⟨s, hs, rfl⟩ := predicates_eq_ok he h
  have hm : Marked s := by
    rcases hs with hs | hs
    · exact hl.marked hs
    · exact marked_conjunct hs hl
  exact ⟨s, by simp [hm.ne_empty], hm⟩

theorem marked_where {e : Expr} (he : o.filter = some e) (hl : e.HasLambda) {c : Clauses}
    (hc : c.filter = true) {extra : Option String} {parts : List String}
    (h : whereParts ⟨⟨.documentDB, root⟩, settings⟩ o c extra = .ok parts) :
    ∃ p ∈ parts, Marked p := by
  rw [whereParts, if_pos hc] at h
  obtain ⟨ps, hps, h⟩ := bind_eq_ok.1 h
  cases h
  obtain ⟨p, hp, hm⟩ := marked_predicates he hl hps
  have hclause : Marked ("WHERE " ++ " AND ".intercalate ps) :=
    (Marked.intercalate hp hm _).append_left _
  rw [if_neg (by simpa using List.ne_nil_of_mem hp)]
  exact ⟨_, by simp, hclause⟩

theorem mem_rendered {c : Clauses} {e : Expr} :
    e ∈ rendered o c ↔ c.filter = true ∧ o.filter = some e ∨
      c.orderBy = true ∧ ∃ ob item, o.orderBy = some ob ∧ item ∈ ob.items ∧ item.expr = e := by
  rw [rendered, List.mem_append]
  cases hf : c.filter <;> cases ho : c.orderBy <;> cases hob : o.orderBy <;> simp

theorem marked_clauseText {c : Clauses} {extra : Option String} {sql : String}
    (h : clauseText ⟨⟨.documentDB, root⟩, settings⟩ o c extra = .ok sql) {e : Expr}
    (he : e ∈ rendered o c) (hl : e.HasLambda) : Marked sql := by
  obtain ⟨select, filter, order, -, hfilter, horder, rfl⟩ := clauseText_eq_ok.1 h
  rcases mem_rendered.1 he with ⟨hc, hf⟩ | ⟨hc, ob, item, hob, hitem, rfl⟩
  · obtain ⟨p, hp, hm⟩ := marked_where hf hl hc hfilter
    exact .intercalate (by simp [hp]) hm _
  · rw [if_pos hc, hob] at horder
    rcases orderParts_eq_ok.1 horder with ⟨hnone, -⟩ | ⟨ob', t, hsome, ht, rfl⟩
    · cases hnone
    · cases hsome
      have hm : Marked ("ORDER BY " ++ t) := (marked_order ht hitem hl).append_left _
      exact .intercalate (by simp) hm _

theorem exists_intercalate_cons (s : String) (rest : List String) (sep : String) :
    ∃ more, sep.intercalate (s :: rest) = s ++ more := by
  cases rest with
  | nil => exact ⟨"", by simp⟩
  | cons t rest =>
    exact ⟨sep ++ sep.intercalate (t :: rest),
      by rw [String.intercalate_cons_cons, String.append_assoc]⟩

/-- The wanted clauses are a whole query if `SELECT` is among them. -/
theorem hasShape_clauseText {a : Assembler} {c : Clauses} {extra : Option String} {sql : String}
    (h : a.clauseText o c extra = .ok sql) (hne : sql ≠ "") : HasShape c.select sql := by
  obtain ⟨select, filter, order, hselect, hfilter, horder, rfl⟩ := clauseText_eq_ok.1 h
  rcases selectParts_eq_ok hselect with ⟨hc, rfl⟩ | ⟨hc, rest, rfl⟩
  · rw [hc]
    rcases whereParts_eq_ok hfilter with rfl | ⟨w, rfl⟩
    · rcases orderParts_eq_ok.1 horder with ⟨-, rfl⟩ | ⟨ob, t, -, -, rfl⟩
      · simp at hne
      · exact ⟨t, .inr (by simp)⟩
    · obtain ⟨more, hmore⟩ := exists_intercalate_cons ("WHERE " ++ w) order " "
      exact ⟨w ++ more,
        .inl (by rw [List.nil_append, List.singleton_append, hmore, String.append_assoc])⟩
  · rw [hc]
    obtain ⟨more, hmore⟩ := exists_intercalate_cons ("SELECT " ++ rest) (filter ++ order) " "
    exact ⟨rest ++ more,
      by rw [List.append_assoc, List.singleton_append, hmore, String.append_assoc]⟩

end Clauses

section TypedQueries

variable {root : RootAlias} {settings : Settings} {o : QueryOptions} {typeName : String}

/-- The text of a typed query: a predicate, and an order or nothing behind it. -/
theorem queryText_tail {a : Assembler} {sql : String} (h : a.queryText o typeName = .ok sql) :
    ∃ w tail, a.typedPredicate o typeName = .ok w ∧ a.IsOrderTail tail o.orderBy ∧
      sql = "SELECT * FROM " ++ a.formatter.aliasText ++ " WHERE " ++ w ++ tail := by
  have hne := ne_empty_of_queryText h
  cases hw : a.typedPredicate o typeName with
  | error err =>
    rw [queryText_of_error hne hw] at h
    cases h
  | ok w =>
    obtain ⟨tail, htail, rfl⟩ := (queryText_eq_ok hne hw).1 h
    exact ⟨w, tail, rfl, htail, rfl⟩

theorem marked_queryText {sql : String}
    (h : queryText ⟨⟨.documentDB, root⟩, settings⟩ o typeName = .ok sql) {e : Expr}
    (he : e ∈ rendered o { filter := true, orderBy := true }) (hl : e.HasLambda) : Marked sql := by
  obtain ⟨w, tail, hw, htail, rfl⟩ := queryText_tail h
  rcases mem_rendered.1 he with ⟨-, hf⟩ | ⟨-, ob, item, hob, hitem, rfl⟩
  · rw [typedPredicate_of_filter hf, map_eq_ok] at hw
    obtain ⟨s, hs, rfl⟩ := hw
    exact (((marked_conjunct hs hl).append_left _).append_left _).append_right _
  · rw [hob] at htail
    obtain ⟨t, ht, rfl⟩ := htail
    exact ((marked_order ht hitem hl).append_left _).append_left _

theorem hasShape_queryText {a : Assembler} {sql : String} (h : a.queryText o typeName = .ok sql) :
    HasShape true sql := by
  obtain ⟨w, tail, -, -, rfl⟩ := queryText_tail h
  exact ⟨"* FROM " ++ a.formatter.aliasText ++ " WHERE " ++ w ++ tail,
    String.toList_inj.1 (by simp)⟩

/-- A typed query finishes its text once the feed has taken the limit. -/
theorem query_eq_settle (a : Assembler) (parser : SqlParser) (o : QueryOptions) (typeName : String)
    (feed : Feed) :
    (a.query parser o typeName feed).2 =
      (a.settle parser ((a.pagedText o typeName feed).map (·.2))).after
        (a.typedNotices o typeName) := by
  rw [query]
  cases a.pagedText o typeName feed <;> rfl

theorem query_fst (a : Assembler) (parser : SqlParser) (o : QueryOptions) (typeName : String)
    (feed : Feed) :
    (a.query parser o typeName feed).1 =
      ((a.pagedText o typeName feed).toOption.map (·.1)).getD feed := by
  rw [query]
  cases a.pagedText o typeName feed <;> rfl

end TypedQueries

/-- Whatever the SQL parser makes of a text, an operation with the check has the same result as
without, and a typed query leaves the same feed.  At most one statement is parsed, and none if a
lambda stands anywhere in a rendered clause. -/
theorem check_passive (root : RootAlias) (settings : Settings) (parser parser' : SqlParser)
    (o : QueryOptions) :
    let on : Assembler := ⟨⟨.documentDB, root⟩, { settings with validateSql := true }⟩
    let off : Assembler := ⟨⟨.documentDB, root⟩, { settings with validateSql := false }⟩
    (∀ c extra, Checked root c.select (∃ e ∈ rendered o c, e.HasLambda)
        (on.clauses parser o c extra) (off.clauses parser' o c extra)) ∧
      ∀ typeName feed,
        (on.query parser o typeName feed).1 = (off.query parser' o typeName feed).1 ∧
        Checked root true (∃ e ∈ rendered o { filter := true, orderBy := true }, e.HasLambda)
          (on.query parser o typeName feed).2 (off.query parser' o typeName feed).2 := by
  intro on off
  have hon : on.settings.validateSql = true := rfl
  have hroot : on.formatter.root = root := rfl
  refine ⟨fun c extra => ?_, fun typeName feed => ⟨?_, ?_⟩⟩
  · refine checked_settle hon hroot
      (fun sql h hne => hasShape_clauseText h hne) ?_ parser parser' _ _
    rintro ⟨e, he, hl⟩ sql h
    exact marked_clauseText h he hl
  · rw [query_fst, query_fst]
    rfl
  · rw [query_eq_settle, query_eq_settle]
    have htext : ∀ sql, (on.pagedText o typeName feed).map (·.2) = .ok sql →
        on.queryText o typeName = .ok sql := by
      intro sql h
      rw [← query_result parser] at h
      exact (query_result_eq_ok.1 h).1
    refine checked_settle hon hroot
      (fun sql h _ => hasShape_queryText (htext sql h)) ?_ parser parser' _ _
    rintro ⟨e, he, hl⟩ sql h
    exact marked_queryText (htext sql h) he hl

end Assembler

end DocQuery
