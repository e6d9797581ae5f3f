import DocQuery.Proofs.Results
import DocQuery.Text.Quoted

/-!
# Literals

* `Text.readLiteralBody_eq_some`: a reader of string literals accepts exactly what is written with
  doubled quotes.
* `Expr.lit_text_reads_back`: a text constant is read back as its text, whatever quotes are in it.
* `Text.quote_mem_upper`: upper-casing neither makes nor removes quotes.
* `Assembler.query_literal`: the literal of a typed query is read as the type's name exactly if that
  has no quote.
-/

namespace DocQuery

namespace Text

/-! ## Reading literals -/

theorem doubleQuotes_cons_of_ne {c : Char} (h : c ≠ '\'') (cs : List Char) :
    doubleQuotes (c :: cs) = c :: doubleQuotes cs := by
  rw [doubleQuotes, if_neg h]

theorem doubleQuotes_eq_self {cs : List Char} (h : '\'' ∉ cs) : doubleQuotes cs = cs := by
  induction cs with
  | nil => rfl
  | cons c cs ih =>
    rw [List.mem_cons, not_or] at h
    rw [doubleQuotes_cons_of_ne (Ne.symm h.1), ih h.2]

theorem readLiteralBody_cons_of_ne {c : Char} (h : c ≠ '\'') (cs : List Char) :
    readLiteralBody (c :: cs) = (readLiteralBody cs).map fun (v, rest) => (c :: v, rest) := by
  rw [readLiteralBody, if_neg h]
  intro cs' hc
  exact absurd hc h

/-- A quote that is not written twice ends the literal. -/
theorem readLiteralBody_quote {rest : List Char} (h : rest.head? ≠ some '\'') :
    readLiteralBody ('\'' :: rest) = some ([], rest) := by
  rw [readLiteralBody, if_pos rfl]
  intro cs _ hrest
  simp [hrest] at h

/-- The body of a literal is read up to its closing quote, with every doubled quote read as one. -/
theorem readLiteralBody_eq_some {cs v rest : List Char} :
    readLiteralBody cs = some (v, rest) ↔
      cs = doubleQuotes v ++ '\'' :: rest ∧ rest.head? ≠ some '\'' := by
  constructor
  · intro h
    fun_induction readLiteralBody cs generalizing v with
    | case1 => simp at h
    | case2 cs ih =>
      obtain ⟨⟨w, rest'⟩, hw, hv⟩ := Option.map_eq_some_iff.1 h
      cases hv
      obtain ⟨rfl, hrest⟩ := ih hw
      exact ⟨rfl, hrest⟩
    | case3 cs hcs =>
      cases h
      refine ⟨rfl, fun hrest => ?_⟩
      obtain ⟨cs', rfl⟩ := List.head?_eq_some_iff.1 hrest
      exact hcs cs' rfl rfl
    | case4 c cs _ hc ih =>
      obtain ⟨⟨w, rest'⟩, hw, hv⟩ := Option.map_eq_some_iff.1 h
      cases hv
      obtain ⟨rfl, hrest⟩ := ih hw
      exact ⟨by rw [doubleQuotes_cons_of_ne hc, List.cons_append], hrest⟩
  · rintro ⟨rfl, hrest⟩
    induction v with
    | nil => exact readLiteralBody_quote hrest
    | cons c v ih =>
      by_cases hc : c = '\''
      · subst hc
        rw [doubleQuotes, if_pos rfl, List.cons_append, List.cons_append, readLiteralBody, ih]
        rfl
      · rw [doubleQuotes_cons_of_ne hc, List.cons_append, readLiteralBody_cons_of_ne hc, ih]
        rfl

/-- A text before a closing quote that is also the text with its quotes doubled has no quote.  The
induction needs the doubled text to be behind by `k` quotes: every quote in the text adds one. -/
theorem append_quote_eq {tail rest : List Char} (htail : tail.head? ≠ some '\'') (cs : List Char)
    (k : Nat) (h : cs ++ '\'' :: tail =
      List.replicate k '\'' ++ (doubleQuotes cs ++ '\'' :: rest)) :
    k = 0 ∧ '\'' ∉ cs ∧ rest = tail := by
  induction cs generalizing k with
  | nil =>
    cases k with
    | zero => simpa [doubleQuotes, eq_comm] using h
    | succ k =>
      have htl : tail = List.replicate k '\'' ++ '\'' :: rest := by
        simpa [doubleQuotes, List.replicate_succ] using h
      cases k <;> simp [htl, List.replicate_succ] at htail
  | cons c cs ih =>
    by_cases hc : c = '\''
    · subst hc
      have hquotes : List.replicate k '\'' ++ (doubleQuotes ('\'' :: cs) ++ '\'' :: rest) =
          List.replicate (k + 1 + 1) '\'' ++ (doubleQuotes cs ++ '\'' :: rest) := by
        rw [doubleQuotes, if_pos rfl, List.replicate_succ', List.replicate_succ']
        simp
      rw [hquotes, List.replicate_succ, List.cons_append, List.cons_append, List.cons.injEq] at h
      obtain ⟨hk, -⟩ := ih (k + 1) h.2
      omega
    · cases k with
      | zero =>
        rw [doubleQuotes_cons_of_ne hc] at h
        obtain ⟨-, hcs, hrest⟩ := ih 0 (by simpa using h)
        exact ⟨rfl, by simpa [Ne.symm hc] using hcs, hrest⟩
      | succ k => simp [List.replicate_succ, hc] at h

/-- Between plain quotes, a text is read as itself exactly if it has no quote, and then it is read
up to the closing quote. -/
theorem readLiteral_quoted {cs tail rest : List Char} (htail : tail.head? ≠ some '\'') :
    readLiteral ('\'' :: (cs ++ '\'' :: tail)) = some (cs, rest) ↔ '\'' ∉ cs ∧ rest = tail := by
  rw [readLiteral, readLiteralBody_eq_some]
  constructor
  · rintro ⟨h, -⟩
    exact (append_quote_eq htail cs 0 h).2
  · rintro ⟨hcs, rfl⟩
    rw [doubleQuotes_eq_self hcs]
    exact ⟨rfl, htail⟩

/-- The literal of a text is read as the text, up to the closing quote, exactly if no further quote
follows there. -/
theorem readLiteral_quoteLiteral (v : String) (rest : List Char) :
    readLiteral ((quoteLiteral v).toList ++ rest) = some (v.toList, rest) ↔
      rest.head? ≠ some '\'' := by
  have hbody : doubleQuotes v.toList ++ ['\''] ++ rest = doubleQuotes v.toList ++ '\'' :: rest := by
    simp
  rw [toList_quoteLiteral, List.cons_append, readLiteral, hbody, readLiteralBody_eq_some]
  exact and_iff_right rfl

theorem quoteLiteral_inj {v w : String} (h : quoteLiteral v = quoteLiteral w) : v = w := by
  have hv : readLiteral ((quoteLiteral v).toList ++ []) = some (v.toList, []) :=
    (readLiteral_quoteLiteral v []).2 (by simp)
  have hw : readLiteral ((quoteLiteral w).toList ++ []) = some (w.toList, []) :=
    (readLiteral_quoteLiteral w []).2 (by simp)
  rw [h, hw] at hv
  simpa [eq_comm, String.toList_inj] using hv

/-! ## Upper case -/

/-- No letter outside ASCII has an upper-case form below `A`. -/
theorem simpleRuns_ge :
    (simpleRuns.all fun r => decide (65 ≤ (r.first : Int) + r.delta)) = true := by
  decide +kernel

theorem expansions_ge :
    (expansions.all fun x => x.2.toList.all fun c => decide (65 ≤ c.toNat)) = true := by
  decide +kernel

theorem toUpper_eq_quote {c : Char} (h : c.toNat < 128) : c.toUpper = '\'' ↔ c = '\'' := by
  have hascii : ∀ n < 128, (Char.ofNat n).toUpper = '\'' ↔ Char.ofNat n = '\'' := by decide
  have hc := hascii c.toNat h
  rwa [Char.ofNat_toNat] at hc

theorem ofNat_ne_quote {n : Nat} (h : 65 ≤ n) : Char.ofNat n ≠ '\'' := by
  intro heq
  by_cases hvalid : n.isValidChar
  · have hchar : Char.ofNat n = Char.ofNatAux n hvalid := dif_pos hvalid
    have hn : n = 39 := congrArg Char.toNat (hchar.symm.trans heq)
    omega
  · have hchar : Char.ofNat n = '\x00' := dif_neg hvalid
    exact absurd (hchar.symm.trans heq) (by decide)

theorem quote_mem_upperChar {c : Char} : '\'' ∈ upperChar c ↔ c = '\'' := by
  by_cases hascii : c.toNat < 128
  · rw [upperChar_ascii hascii, List.mem_singleton, eq_comm, toUpper_eq_quote hascii]
  · have hne : c ≠ '\'' := by
      rintro rfl
      exact hascii (by decide)
    refine iff_of_false (fun hq => ?_) hne
    rw [upperChar, if_neg hascii] at hq
    split at hq
    · rename_i s hs
      obtain ⟨l₁, l₂, hl, -⟩ := List.lookup_eq_some_iff.1 hs
      have hge := List.all_eq_true.1
        (List.all_eq_true.1 expansions_ge (c.toNat, s) (by simp [hl])) _ hq
      exact absurd hge (by decide)
    · split at hq
      · rename_i r hr
        have hge := of_decide_eq_true
          (List.all_eq_true.1 simpleRuns_ge r (List.mem_of_find?_eq_some hr))
        have hholds := List.find?_some hr
        simp only [CaseRun.holds, Bool.and_eq_true, decide_eq_true_eq] at hholds
        exact ofNat_ne_quote (by omega) (List.mem_singleton.1 hq).symm
      · exact hne (List.mem_singleton.1 hq).symm

/-- Upper-casing neither makes nor removes quotes. -/
theorem quote_mem_upper {s : String} : '\'' ∈ (upper s).toList ↔ '\'' ∈ s.toList := by
  rw [toList_upper, List.mem_flatMap]
  constructor
  · rintro ⟨c, hc, hq⟩
    exact quote_mem_upperChar.1 hq ▸ hc
  · intro h
    exact ⟨_, h, quote_mem_upperChar.2 rfl⟩

end Text

namespace Expr

/-! ## Text constants -/

theorem render_lit_text (f : Formatter) (mode : Mode) (v : String) :
    (lit (.text v)).render f mode = .ok (Text.quoteLiteral v) := by
  rw [lit, render]
  rfl

/-- A text constant is written as a literal that is read back as the text, whatever quotes are in
it.  What follows the literal is left unread, unless it starts with a quote.  So different texts
have different literals. -/
theorem lit_text_reads_back (f : Formatter) (mode : Mode) (v : String) :
    ∃ s, (lit (.text v)).render f mode = .ok s ∧
      (∀ rest : String, Text.readLiteral (s ++ rest).toList = some (v.toList, rest.toList) ↔
        rest.toList.head? ≠ some '\'') ∧
      ∀ f' mode' w, (lit (.text w)).render f' mode' = .ok s → w = v := by
  refine ⟨Text.quoteLiteral v, render_lit_text f mode v, fun rest => ?_, fun f' mode' w hw => ?_⟩
  · rw [String.toList_append]
    exact Text.readLiteral_quoteLiteral v rest.toList
  · rw [render_lit_text] at hw
    exact Text.quoteLiteral_inj (Except.ok.inj hw)

-- quotes at both ends touch the quotes around them
example : (lit (.text "'a'")).render .default .filter = .ok "'''a'''" ∧
    Text.readLiteral "'''a''' = 1".toList = some ("'a'".toList, " = 1".toList) := ⟨rfl, by decide⟩

end Expr

namespace Assembler

variable {a : Assembler}

/-! ## The literal of a typed query -/

/-- Behind the discriminator stands a filter or nothing. -/
theorem typedPredicate_eq_ok {o : QueryOptions} {typeName w : String}
    (h : a.typedPredicate o typeName = .ok w) :
    ∃ more, w = a.discriminator typeName ++ more ∧ more.toList.head? ≠ some '\'' := by
  rcases Option.eq_none_or_eq_some o.filter with ho | ⟨e, ho⟩
  · rw [typedPredicate_of_none ho] at h
    cases h
    exact ⟨"", by simp, by simp⟩
  · rw [typedPredicate_of_filter ho, map_eq_ok] at h
    obtain ⟨s, -, rfl⟩ := h
    exact ⟨" AND " ++ s, String.append_assoc, by simp⟩

theorem head?_of_isOrderTail {tail : String} {order : Option OrderBy}
    (h : a.IsOrderTail tail order) : tail.toList.head? ≠ some '\'' := by
  cases order with
  | none =>
    rw [IsOrderTail] at h
    simp [h]
  | some order =>
    obtain ⟨t, -, rfl⟩ := h
    simp

/-- A typed query has a name for its type. -/
theorem ne_empty_of_queryText {o : QueryOptions} {typeName sql : String}
    (h : a.queryText o typeName = .ok sql) : typeName ≠ "" := by
  rintro rfl
  simp [queryText] at h

/-- The text of a typed query up to the literal of its type, and what stands behind the literal. -/
theorem queryText_split {o : QueryOptions} {typeName sql : String}
    (h : a.queryText o typeName = .ok sql) :
    ∃ tail, sql = "SELECT * FROM " ++ a.formatter.aliasText ++ " WHERE " ++
        a.formatter.field a.settings.typeField ++ " = " ++
          ("'" ++ Text.upper typeName ++ "'" ++ tail) ∧ tail.toList.head? ≠ some '\'' := by
  have hne := ne_empty_of_queryText h
  cases hw : a.typedPredicate o typeName with
  | error err =>
    rw [queryText_of_error hne hw] at h
    cases h
  | ok w =>
    obtain ⟨tail, htail, rfl⟩ := (queryText_eq_ok hne hw).1 h
    obtain ⟨more, rfl, hmore⟩ := typedPredicate_eq_ok hw
    refine ⟨more ++ tail, String.toList_inj.1 (by simp [discriminator]), fun hhead => ?_⟩
    rw [String.toList_append, List.head?_append] at hhead
    rcases Option.or_eq_some_iff.1 hhead with hfirst | ⟨-, hsecond⟩
    · exact hmore hfirst
    · exact head?_of_isOrderTail htail hsecond

/-- The literal of a typed query is read as the upper-cased name of the type, up to the quote that
is meant to close it, exactly if the name has no quote.  If it has one, then the literal is read as
something else, wherever it ends. -/
theorem query_literal {parser : SqlParser} {o : QueryOptions} {typeName sql : String} {feed : Feed}
    (h : (a.query parser o typeName feed).2.result = .ok sql) :
    ∃ tail, sql = "SELECT * FROM " ++ a.formatter.aliasText ++ " WHERE " ++
        a.formatter.field a.settings.typeField ++ " = " ++
          ("'" ++ Text.upper typeName ++ "'" ++ tail) ∧
      ∀ rest, Text.readLiteral ("'" ++ Text.upper typeName ++ "'" ++ tail).toList =
          some ((Text.upper typeName).toList, rest) ↔
            '\'' ∉ typeName.toList ∧ rest = tail.toList := by
  obtain ⟨htext, -⟩ := query_result_eq_ok.1 h
  obtain ⟨tail, hsql, htail⟩ := queryText_split htext
  refine ⟨tail, hsql, fun rest => ?_⟩
  have hlist : ("'" ++ Text.upper typeName ++ "'" ++ tail).toList =
      '\'' :: ((Text.upper typeName).toList ++ '\'' :: tail.toList) := by simp
  rw [hlist, Text.readLiteral_quoted htail, Text.quote_mem_upper]

/-- The name `O'Brien` is read as `O`, and the rest of it stands behind the literal. -/
theorem query_literal_obrien :
    (plain.query (fun _ => .select) {} "O'Brien" {}).2.result =
      .ok "SELECT * FROM c WHERE c._t = 'O'BRIEN'" ∧
      Text.readLiteral "'O'BRIEN'".toList = some ("O".toList, "BRIEN'".toList) ∧
      ∀ rest, Text.readLiteral "'O'BRIEN'".toList ≠ some ("O'BRIEN".toList, rest) := by
  have hquery : (plain.query (fun _ => .select) {} "O'Brien" {}).2.result =
      .ok "SELECT * FROM c WHERE c._t = 'O'BRIEN'" := rfl
  refine ⟨hquery, by decide, fun rest hread => ?_⟩
  obtain ⟨tail, hsql, hliteral⟩ := query_literal hquery
  have hupper : Text.upper "O'Brien" = "O'BRIEN" := by decide
  have hfield : plain.formatter.field plain.settings.typeField = "c._t" := by decide
  have halias : plain.formatter.aliasText = "c" := rfl
  have htail : tail = "" := by
    rw [hupper, hfield, halias] at hsql
    simpa using congrArg String.toList hsql
  rw [hupper, htail] at hliteral
  exact absurd ((hliteral rest).1 hread).1 (by decide)

end Assembler

end DocQuery
