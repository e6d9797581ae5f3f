import DocQuery.Proofs.Conjunction
import DocQuery.Proofs.Rendering

/-!
# Composition of clauses

The text of a selection of clauses is made of the texts of its parts: the `SELECT` clause with its
limit, the `WHERE` clause and the `ORDER BY` clause.  None of them reads what belongs to another, so
options are the same to a selection if they agree on what it wants.

* `Clauses.parts`: a selection, cut into these three.
* `joinTexts`: texts in a row, without the empty ones.
* `QueryOptions.AgreeOn c`: options that agree on what the selection `c` wants.
* `Assembler.clauses_compose`: the text of a selection is that of its parts in a row, or the error
  of the first part that fails, and depends on nothing else.
-/

namespace DocQuery

namespace Clauses

/-- The clauses in both selections. -/
def inter (c d : Clauses) : Clauses :=
  { select := c.select && d.select, filter := c.filter && d.filter,
    orderBy := c.orderBy && d.orderBy, top := c.top && d.top }

/-- The parts of a selection.  The limit stands in the `SELECT` clause. -/
def parts (c : Clauses) : List Clauses :=
  [c.inter { select := true, top := true }, c.inter { filter := true }, c.inter { orderBy := true }]

end Clauses

/-! ## Texts in a row -/

/-- The texts with a space between them, without the empty ones. -/
def joinTexts (texts : List String) : String := " ".intercalate (texts.filter (· ≠ ""))

/-- Nothing, or one text that starts with the keyword. -/
def Headed (keyword : String) (parts : List String) : Prop :=
  parts = [] ∨ ∃ rest, parts = [keyword ++ rest]

/-- The empty text, or one that starts with the keyword. -/
def StartsWith (keyword text : String) : Prop := text = "" ∨ ∃ rest, text = keyword ++ rest

theorem Headed.startsWith {keyword : String} {parts : List String} (h : Headed keyword parts) :
    StartsWith keyword (" ".intercalate parts) := by
  rcases h with rfl | ⟨rest, rfl⟩
  · exact .inl String.intercalate_nil
  · exact .inr ⟨rest, String.intercalate_singleton⟩

/-- Dropping the empty text undoes the joining of at most one text. -/
theorem Headed.filter_intercalate {keyword : String} {parts : List String}
    (h : Headed keyword parts) (hkey : keyword ≠ "") :
    [" ".intercalate parts].filter (· ≠ "") = parts := by
  rcases h with rfl | ⟨rest, rfl⟩
  · rfl
  · have hne : keyword ++ rest ≠ "" := by simp [hkey]
    rw [String.intercalate_singleton, List.filter_eq_self]
    intro text htext
    rw [List.mem_singleton.1 htext]
    exact decide_eq_true hne

/-- Joining joined parts is joining all of them. -/
theorem joinTexts_intercalate {keywords : List String} {partss : List (List String)}
    (hkeys : ∀ k ∈ keywords, k ≠ "") (h : List.Forall₂ Headed keywords partss) :
    joinTexts (partss.map (" ".intercalate ·)) = " ".intercalate partss.flatten := by
  have hfilter : (partss.map (" ".intercalate ·)).filter (· ≠ "") = partss.flatten := by
    induction h with
    | nil => rfl
    | cons hparts hrest ih =>
      rw [List.map_cons, ← List.singleton_append, List.filter_append, List.flatten_cons,
        hparts.filter_intercalate (hkeys _ List.mem_cons_self),
        ih fun k hk => hkeys k (List.mem_cons_of_mem _ hk)]
  rw [joinTexts, hfilter]

theorem Headed.ne_empty {keyword : String} (hkey : keyword ≠ "") {parts : List String}
    (h : Headed keyword parts) : ∀ t ∈ parts, t ≠ "" := by
  intro t ht
  rcases h with rfl | ⟨rest, rfl⟩
  · simp at ht
  · rw [List.mem_singleton.1 ht]
    simp [hkey]

/-- Joining the texts behind the first one before makes no difference, if none is empty. -/
theorem joinTexts_cons {s : String} (hs : s ≠ "") {texts : List String} (h : ∀ t ∈ texts, t ≠ "") :
    joinTexts [s, " ".intercalate texts] = " ".intercalate (s :: texts) := by
  cases texts with
  | nil => simp [joinTexts, hs]
  | cons t texts =>
    have ht : t ≠ "" := h t (by simp)
    have hrest : " ".intercalate (t :: texts) ≠ "" := by
      cases texts <;> simp [ht]
    rw [String.intercalate_cons_cons]
    simp [joinTexts, hs, hrest]

/-! ## What a selection wants -/

/-- The options agree on what the selection wants.  A limit is only wanted in a `SELECT` clause, and
only what it amounts to counts. -/
structure QueryOptions.AgreeOn (c : Clauses) (o o' : QueryOptions) : Prop where
  select : c.select = true → o.select = o'.select
  limit : c.select = true → c.top = true → o.limit = o'.limit
  filter : c.filter = true → o.filter = o'.filter
  orderBy : c.orderBy = true → o.orderBy = o'.orderBy

namespace Assembler

section Agreement

variable {a : Assembler} {o o' : QueryOptions} {c : Clauses} {extra : Option String}

theorem selectParts_congr (h : o.AgreeOn c o') : a.selectParts o c = a.selectParts o' c := by
  unfold selectParts
  refine ite_congr rfl (fun hc => ?_) fun _ => rfl
  have hlimit : (if c.top then o.limit else .none) = if c.top then o'.limit else .none :=
    ite_congr rfl (fun ht => h.limit hc ht) fun _ => rfl
  rw [hlimit, h.select hc]

theorem whereParts_congr (h : o.AgreeOn c o') :
    a.whereParts o c extra = a.whereParts o' c extra := by
  unfold whereParts
  refine ite_congr rfl (fun hc => ?_) fun _ => rfl
  have hpredicates : a.predicates o extra = a.predicates o' extra := by
    unfold predicates
    rw [h.filter hc]
  rw [hpredicates]

theorem clauseText_congr (h : o.AgreeOn c o') :
    a.clauseText o c extra = a.clauseText o' c extra := by
  have horder : (if c.orderBy then o.orderBy else none) = if c.orderBy then o'.orderBy else none :=
    ite_congr rfl h.orderBy fun _ => rfl
  rw [clauseText, clauseText, selectParts_congr h, whereParts_congr h, horder]

theorem rendered_congr (h : o.AgreeOn c o') : rendered o c = rendered o' c := by
  have hfilter : (if c.filter then o.filter.toList else []) =
      if c.filter then o'.filter.toList else [] :=
    ite_congr rfl (fun hc => congrArg Option.toList (h.filter hc)) fun _ => rfl
  rw [rendered, rendered, hfilter]
  refine congrArg _ (ite_congr rfl (fun hc => ?_) fun _ => rfl)
  rw [h.orderBy hc]

/-- Options that agree on what is wanted give the same outcome, its reports included. -/
theorem clauses_congr (h : o.AgreeOn c o') (parser : SqlParser) :
    a.clauses parser o c extra = a.clauses parser o' c extra := by
  have hnotices : a.clauseNotices o c = a.clauseNotices o' c := by
    rw [clauseNotices, clauseNotices, selectParts_congr h, rendered_congr h]
  rw [clauses, clauses, clauseText_congr h, hnotices]

end Agreement

/-! ## Parts of a selection -/

section Parts

variable (a : Assembler) (o : QueryOptions) (c : Clauses) (extra : Option String)

theorem clauseText_selectPart :
    a.clauseText o (c.inter { select := true, top := true }) extra =
      (a.selectParts o c).map (" ".intercalate ·) := by
  have hselect : a.selectParts o (c.inter { select := true, top := true }) = a.selectParts o c := by
    simp only [selectParts, Clauses.inter, Bool.and_true]
  have hfilter : a.whereParts o (c.inter { select := true, top := true }) extra = .ok [] := by
    simp [whereParts, Clauses.inter]
  rw [clauseText, hselect, hfilter]
  simp only [Clauses.inter, Bool.and_false]
  cases a.selectParts o c with
  | error e => rfl
  | ok select =>
    show Except.ok (" ".intercalate (select ++ [] ++ [])) = Except.ok (" ".intercalate select)
    rw [List.append_nil, List.append_nil]

theorem clauseText_filterPart :
    a.clauseText o (c.inter { filter := true }) extra =
      ((a.whereParts o c extra).mapError .render).map (" ".intercalate ·) := by
  have hselect : a.selectParts o (c.inter { filter := true }) = .ok [] := by
    simp [selectParts, Clauses.inter]
  have hfilter : a.whereParts o (c.inter { filter := true }) extra = a.whereParts o c extra := by
    simp only [whereParts, Clauses.inter, Bool.and_true]
  rw [clauseText, hselect, hfilter]
  simp only [Clauses.inter, Bool.and_false]
  cases a.whereParts o c extra with
  | error e => rfl
  | ok filter =>
    show Except.ok (" ".intercalate ([] ++ filter ++ [])) = Except.ok (" ".intercalate filter)
    rw [List.nil_append, List.append_nil]

theorem clauseText_orderPart :
    a.clauseText o (c.inter { orderBy := true }) extra =
      ((a.orderParts (if c.orderBy then o.orderBy else none)).mapError .render).map
        (" ".intercalate ·) := by
  have hselect : a.selectParts o (c.inter { orderBy := true }) = .ok [] := by
    simp [selectParts, Clauses.inter]
  have hfilter : a.whereParts o (c.inter { orderBy := true }) extra = .ok [] := by
    simp [whereParts, Clauses.inter]
  rw [clauseText, hselect, hfilter]
  simp only [Clauses.inter, Bool.and_true]
  cases a.orderParts (if c.orderBy then o.orderBy else none) with
  | error e => rfl
  | ok order => rfl

theorem headed_select {parts : List String} (h : a.selectParts o c = .ok parts) :
    Headed "SELECT " parts := by
  rcases selectParts_eq_ok h with ⟨-, hnil⟩ | ⟨-, hrest⟩
  · exact .inl hnil
  · exact .inr hrest

theorem headed_order {order : Option OrderBy} {parts : List String}
    (h : a.orderParts order = .ok parts) : Headed "ORDER BY " parts := by
  rcases orderParts_eq_ok.1 h with ⟨-, hnil⟩ | ⟨-, t, -, -, hparts⟩
  · exact .inl hnil
  · exact .inr ⟨t, hparts⟩

/-- The clauses of a selection start with these, as far as there are any. -/
def keywords : List String := ["SELECT ", "WHERE ", "ORDER BY "]

/-- The text of a selection is that of its parts in a row, or the error of the first part that
fails. -/
theorem clauseText_eq_parts :
    a.clauseText o c extra = (c.parts.mapM fun p => a.clauseText o p extra).map joinTexts := by
  rw [Clauses.parts, List.mapM_cons, List.mapM_cons, List.mapM_cons, List.mapM_nil,
    clauseText_selectPart, clauseText_filterPart, clauseText_orderPart, clauseText]
  cases hselect : a.selectParts o c with
  | error e => rfl
  | ok select =>
    cases hfilter : a.whereParts o c extra with
    | error e => rfl
    | ok filter =>
      cases horder : a.orderParts (if c.orderBy then o.orderBy else none) with
      | error e => rfl
      | ok order =>
        have hheaded : List.Forall₂ Headed keywords [select, filter, order] :=
          .cons (a.headed_select o c hselect)
            (.cons (whereParts_eq_ok hfilter) (.cons (a.headed_order horder) .nil))
        have hjoin := joinTexts_intercalate (by decide) hheaded
        have hflatten : [select, filter, order].flatten = select ++ filter ++ order := by simp
        rw [hflatten] at hjoin
        exact congrArg Except.ok hjoin.symm

/-- Every part is empty or starts with its keyword. -/
theorem startsWith_parts {texts : List String}
    (h : (c.parts.mapM fun p => a.clauseText o p extra) = .ok texts) :
    List.Forall₂ StartsWith keywords texts := by
  have htexts := mapM_eq_ok.1 h
  rw [Clauses.parts] at htexts
  obtain _ | ⟨hselect, hrest⟩ := htexts
  obtain _ | ⟨hfilter, hrest⟩ := hrest
  obtain _ | ⟨horder, hrest⟩ := hrest
  obtain _ | _ := hrest
  rw [clauseText_selectPart, map_eq_ok] at hselect
  rw [clauseText_filterPart, map_eq_ok] at hfilter
  rw [clauseText_orderPart, map_eq_ok] at horder
  obtain ⟨select, hselect, rfl⟩ := hselect
  obtain ⟨filter, hfilter, rfl⟩ := hfilter
  obtain ⟨order, horder, rfl⟩ := horder
  have hwhere : Headed "WHERE " filter := whereParts_eq_ok (mapError_eq_ok.1 hfilter)
  have hsort : Headed "ORDER BY " order := a.headed_order (mapError_eq_ok.1 horder)
  exact .cons (a.headed_select o c hselect).startsWith
    (.cons hwhere.startsWith (.cons hsort.startsWith .nil))

end Parts

/-- The text of a selection is that of its parts in a row, each with its own keyword, or the error
of the first part that fails; and the outcome is the same for all options that agree on what the
selection wants. -/
theorem clauses_compose (a : Assembler) (parser : SqlParser) (parsers : Clauses → SqlParser)
    (o : QueryOptions) (c : Clauses) (extra : Option String) :
    let texts := c.parts.mapM fun p => (a.clauses (parsers p) o p extra).result
    (a.clauses parser o c extra).result = texts.map joinTexts ∧
      (∀ ts, texts = .ok ts → List.Forall₂ StartsWith keywords ts) ∧
      ∀ o', o.AgreeOn c o' → a.clauses parser o' c extra = a.clauses parser o c extra := by
  intro texts
  have htexts : texts = c.parts.mapM fun p => a.clauseText o p extra := by
    simp only [texts, clauses_result]
  refine ⟨?_, ?_, ?_⟩
  · rw [clauses_result, htexts]
    exact a.clauseText_eq_parts o c extra
  · intro ts hts
    rw [htexts] at hts
    exact a.startsWith_parts o c extra hts
  · intro o' hagree
    exact (clauses_congr hagree parser).symm

/-- Two fields of the documents with a given price, and a sort without text. -/
def unsortedPrices : QueryOptions :=
  { select := some "Name, Price", filter := some .priceThree, top := .int (-1)
    orderBy := some (.single ⟨.unary (.other "increment") (.prop "Price"), .ascending⟩) }

theorem clauses_compose_unsortedPrices :
    let wanted : Clauses := { select := true, filter := true, top := true }
    (plain.clauses (fun _ => .select) unsortedPrices wanted (some "c.Public = 1")).result =
        .ok (joinTexts
          ["SELECT c.Name, c.Price FROM c", "WHERE c.Public = 1 AND c.Price = 3", ""]) ∧
      (plain.clauses (fun _ => .select) unsortedPrices .everything none).result =
        .error (.render (.noSymbol "increment")) ∧
      plain.clauses (fun _ => .select)
          { unsortedPrices with
            top := .null, orderBy := none, search := some (.searchTerm "blue") } wanted none =
        plain.clauses (fun _ => .select) unsortedPrices wanted none := by
  intro wanted
  refine ⟨?_, ?_, ?_⟩
  · exact (clauses_compose plain (fun _ => .select) (fun _ _ => .select) unsortedPrices wanted
      (some "c.Public = 1")).1
  · exact (clauses_compose plain (fun _ => .select) (fun _ _ => .select) unsortedPrices
      .everything none).1
  · have hagree : QueryOptions.AgreeOn wanted unsortedPrices
        { unsortedPrices with
          top := .null, orderBy := none, search := some (.searchTerm "blue") } :=
      ⟨fun _ => rfl, fun _ _ => rfl, fun _ => rfl, fun h => nomatch h⟩
    exact (clauses_compose plain (fun _ => .select) (fun _ _ => .select) unsortedPrices wanted
      none).2.2 _ hagree

end Assembler

end DocQuery
