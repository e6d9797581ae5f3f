import DocQuery.Proofs.Readable
import DocQuery.Proofs.Results

/-!
# Predicates joined by AND

A `WHERE` clause joins the predicate of its caller and the filter by writing `AND` between them.

* `Expr.conjuncts`: the members of the outermost conjunction of an expression, grouped to the left.
* `Phrase.holds`: the truth of a phrase, given the truth of what is neither a conjunction nor a
  disjunction.
* `Expr.AndedAs`: what an expression becomes when `AND` and an operand are written behind its text.
* `Assembler.query_conjuncts`: the `WHERE` clause of a typed query is the conjunction of the
  discriminator and the filter, whatever the filter is.
* `Assembler.clauses_conjuncts`: an extra predicate and the filter are conjoined unless the extra
  predicate is a disjunction; then the filter is conjoined with the last disjunct only.
-/

namespace DocQuery

/-! ## Truth -/

namespace Phrase

/-- Is the phrase true?  `σ` gives the truth of everything but conjunctions and disjunctions. -/
def holds (σ : Phrase → Bool) : Phrase → Bool
  | .binary .and left right => left.holds σ && right.holds σ
  | .binary .or left right => left.holds σ || right.holds σ
  | x => σ x

/-- A phrase is true exactly if all its conjuncts are. -/
theorem holds_eq_all_conjuncts (σ : Phrase → Bool) (x : Phrase) :
    x.holds σ = x.conjuncts.all (·.holds σ) := by
  induction x with
  | binary op l r ihl ihr =>
    cases op with
    | and => rw [holds, conjuncts, List.all_append, ihl, ihr]
    | _ => simp [conjuncts]
  | _ => simp [conjuncts]

theorem holds_graft_and (σ : Phrase → Bool) (l r : Phrase) :
    (graft .and l r).holds σ = (l.holds σ && r.holds σ) := by
  rw [holds_eq_all_conjuncts, conjuncts_graft_and, List.all_append, ← holds_eq_all_conjuncts,
    ← holds_eq_all_conjuncts]

theorem holds_graft_or (σ : Phrase → Bool) (l r : Phrase) :
    (graft .or l r).holds σ = (l.holds σ || r.holds σ) := by
  induction r with
  | binary op a b iha _ =>
    by_cases h : op.level = BinaryOp.or.level
    · have hop : op = .or := by cases op <;> simp_all [BinaryOp.level]
      subst hop
      rw [graft_binary rfl, holds, holds, iha, Bool.or_assoc]
    · rw [graft_binary_of_ne h, holds]
  | _ => rfl

end Phrase

/-- Two texts with `AND` between them. -/
theorem Spells.and {s t : String} {x y : Phrase} (hs : Spells s x) (ht : Spells t y)
    (hx : BinaryOp.and.level ≤ x.level) (hy : BinaryOp.and.level ≤ y.level) :
    Spells (s ++ " AND " ++ t) (.graft .and x y) := by
  have htext : s ++ " " ++ "AND" ++ " " ++ t = s ++ " AND " ++ t := String.toList_inj.1 (by simp)
  exact htext ▸ spells_binary (show BinaryOp.and.symbol? = some "AND" from rfl) hs ht hx hy

namespace Expr

section Truth

variable (f : Formatter) (mode : Mode)

/-- The members of the outermost conjunction, with every chain of operators grouped to the left. -/
def conjuncts (e : Expr) : List Phrase := (e.outline f mode).leftAssoc.conjuncts

/-- The truth of an expression, given the truth of what is neither a conjunction nor a
disjunction. -/
def holds (σ : Phrase → Bool) (e : Expr) : Bool := (e.outline f mode).leftAssoc.holds σ

/-- The truth of an expression whose last disjunct is conjoined with something else. -/
def holdsWith (σ : Phrase → Bool) (other : Bool) : Expr → Bool
  | .convert source _ => source.holdsWith σ other
  | .binary .or left right => left.holds f mode σ || right.holdsWith σ other
  | e => e.holds f mode σ && other

end Truth

/-- Is the expression, conversions aside, a disjunction? -/
def isDisjunction : Expr → Bool
  | .convert source _ => source.isDisjunction
  | .binary .or _ _ => true
  | _ => false

variable {f : Formatter} {mode : Mode}

theorem holdsWith_of_not_disjunction {e : Expr} (h : e.isDisjunction = false) (σ : Phrase → Bool)
    (other : Bool) : e.holdsWith f mode σ other = (e.holds f mode σ && other) := by
  induction e with
  | convert source t ih => exact ih h
  | binary op l r _ _ =>
    cases op with
    | or => simp [isDisjunction] at h
    | _ => rfl
  | _ => rfl

/-- Only disjunctions hold less tightly than a conjunction. -/
theorem and_level_le_written {e : Expr} (h : e.isDisjunction = false) :
    BinaryOp.and.level ≤ (e.written f mode).level := by
  induction e with
  | convert source t ih => exact ih h
  | binary op l r _ _ =>
    rw [written, Phrase.level_graft]
    cases op with
    | or => simp [isDisjunction] at h
    | _ => simp [BinaryOp.level]
  | _ => simp [written, Phrase.level, BinaryOp.level]

theorem bare_enclose_written (op : BinaryOp) (e : Expr) :
    (Phrase.enclose op (e.written f mode)).bare = (e.outline f mode).leftAssoc := by
  rw [bare_enclose, bare_written]

theorem Readable.text_ne_empty {e : Expr} (h : Readable f mode e) {s : String}
    (hs : e.render f mode = .ok s) : s ≠ "" := by
  obtain ⟨s', hs', hsp⟩ := h.spells
  obtain rfl := Except.ok.inj (hs.symm.trans hs')
  exact hsp.ne_empty

/-! ## `AND` behind a text -/

/-- The phrase `x` is what an expression becomes when `AND` and its operand `y` are written behind
it. -/
structure AndedAs (f : Formatter) (mode : Mode) (e : Expr) (y x : Phrase) : Prop where
  tight : x.tight 0 = true
  holds : ∀ σ, x.bare.holds σ = e.holdsWith f mode σ (y.bare.holds σ)
  conjoined : e.isDisjunction = false → x.bare.conjuncts = e.conjuncts f mode ++ y.bare.conjuncts
  disjoined : e.isDisjunction = true → x.level = BinaryOp.or.level

theorem AndedAs.convert {e : Expr} {y x : Phrase} (h : AndedAs f mode e y x) (t : Option String) :
    AndedAs f mode (.convert e t) y x :=
  ⟨h.tight, h.holds, h.conjoined, h.disjoined⟩

/-- Behind anything but a disjunction, the operand is conjoined with the whole. -/
theorem AndedAs.graft_and {e : Expr} {y : Phrase} (he : e.isDisjunction = false)
    (hy : y.tight BinaryOp.and.level = true) :
    AndedAs f mode e y (.graft .and (e.written f mode) y) := by
  have hbare : (Phrase.graft .and (e.written f mode) y).bare =
      .graft .and (e.outline f mode).leftAssoc y.bare := by
    rw [Phrase.bare_graft _ hy, bare_written]
  refine ⟨Phrase.tight_graft 0 (Phrase.tight_mono (Nat.zero_le _) (tight_written e)) hy, ?_, ?_, ?_⟩
  · intro σ
    rw [hbare, Phrase.holds_graft_and, holdsWith_of_not_disjunction he]
    rfl
  · intro _
    rw [hbare, Phrase.conjuncts_graft_and]
    rfl
  · intro h
    exact absurd h (by simp [he])

/-- Behind a disjunction, the operand goes with the right operand of the disjunction. -/
theorem AndedAs.graft_or {r : Expr} {y z : Phrase} (hz : AndedAs f mode r y z) (l : Expr) :
    AndedAs f mode (.binary .or l r) y (.graft .or (l.written f mode) z) := by
  have htight : z.tight BinaryOp.or.level = true := Phrase.tight_mono (Nat.zero_le _) hz.tight
  refine ⟨Phrase.tight_graft 0 (Phrase.tight_mono (Nat.zero_le _) (tight_written l)) htight,
    ?_, ?_, ?_⟩
  · intro σ
    rw [Phrase.bare_graft _ htight, bare_written, Phrase.holds_graft_or, hz.holds]
    rfl
  · intro h
    simp [isDisjunction] at h
  · intro _
    exact Phrase.level_graft _ _ _

/-- The operand is conjoined with the whole exactly if that is no disjunction: a disjunction is a
single conjunct. -/
theorem AndedAs.conjuncts_iff {e : Expr} {y x : Phrase} (h : AndedAs f mode e y x) :
    x.bare.conjuncts = e.conjuncts f mode ++ y.bare.conjuncts ↔ e.isDisjunction = false := by
  refine ⟨fun hconj => ?_, h.conjoined⟩
  rw [← Bool.not_eq_true]
  intro hdisj
  have hlevel : x.bare.level ≠ BinaryOp.and.level := by
    rw [Phrase.level_bare h.tight, h.disjoined hdisj]
    decide
  have hlen := congrArg List.length hconj
  have hpos := List.length_pos_of_ne_nil (e.outline f mode).leftAssoc.conjuncts_ne_nil
  have hpos' := List.length_pos_of_ne_nil y.bare.conjuncts_ne_nil
  rw [Phrase.conjuncts_of_level_ne hlevel, List.length_append, List.length_singleton,
    conjuncts] at hlen
  omega

/-- As an operand of `OR`, no expression is put in parentheses. -/
theorem Readable.operandText_or {e : Expr} (h : Readable f mode e) (s : String) :
    operandText e .or s = .ok s := by
  have hlevel := (e.written f mode).one_le_level
  rw [operandText, h.needsParens_eq rfl, decide_eq_false (by simp only [BinaryOp.level]; omega)]
  rfl

/-- What is written behind a disjunction is read together with its right operand. -/
theorem Readable.spells_or_append {l r : Expr} (hl : Readable f mode l) (hr : Readable f mode r)
    {sr t : String} {z : Phrase} (hsr : r.render f mode = .ok sr) (hz : Spells (sr ++ t) z) :
    ∃ s, (Expr.binary .or l r).render f mode = .ok s ∧
      Spells (s ++ t) (.graft .or (l.written f mode) z) := by
  obtain ⟨sl, hsl, hspl⟩ := hl.spells
  refine ⟨sl ++ " " ++ "OR" ++ " " ++ sr, ?_, ?_⟩
  · simp only [render, hsl, hsr, hl.operandText_or, hr.operandText_or, bind, Except.bind]
    rfl
  · have hor := spells_binary (show BinaryOp.or.symbol? = some "OR" from rfl) hspl hz
      (l.written f mode).one_le_level z.one_le_level
    rwa [← String.append_assoc] at hor

/-- The text of an expression with `AND` and an operand behind it. -/
theorem Readable.spells_and {e : Expr} (h : Readable f mode e) {t : String} {y : Phrase}
    (ht : Spells t y) (hlevel : BinaryOp.and.level ≤ y.level)
    (hy : y.tight BinaryOp.and.level = true) :
    ∃ s x, e.render f mode = .ok s ∧ Spells (s ++ " AND " ++ t) x ∧ AndedAs f mode e y x := by
  have hand : ∀ {e : Expr}, Readable f mode e → e.isDisjunction = false →
      ∃ s x, e.render f mode = .ok s ∧ Spells (s ++ " AND " ++ t) x ∧ AndedAs f mode e y x := by
    intro e h he
    obtain ⟨s, hs, hsp⟩ := h.spells
    exact ⟨s, _, hs, hsp.and ht (and_level_le_written he) hlevel, .graft_and he hy⟩
  -- the induction goes down the right operands of a disjunction
  induction h with
  | convert _ ih =>
    obtain ⟨s, x, hs, hsp, hx⟩ := ih
    exact ⟨s, x, by rw [render]; exact hs, hsp, hx.convert _⟩
  | @binary op l r hop hl hr _ ihr =>
    by_cases ho : op = .or
    · subst ho
      obtain ⟨sr, z, hsr, hspz, hz⟩ := ihr
      rw [String.append_assoc] at hspz
      obtain ⟨s, hs, hsp⟩ := hl.spells_or_append hr hsr hspz
      rw [← String.append_assoc] at hsp
      exact ⟨s, _, hs, hsp, hz.graft_or l⟩
    · exact hand (.binary hop hl hr) (by cases op <;> simp_all [isDisjunction])
  | @leaf e hl =>
    obtain ⟨_, _, _, hleaf⟩ := hl.render_eq
    exact hand (.leaf hl) (by cases e <;> simp_all [isLeaf, isDisjunction])
  | unary hop he => exact hand (.unary hop he) rfl
  | call hn ha => exact hand (.call hn ha) rfl
  | quantifier hk hs hv hb hbody => exact hand (.quantifier hk hs hv hb hbody) rfl

/-- `Owner eq 1 or Public eq 1`. -/
def ownerOrPublic : Expr :=
  .binary .or (.binary .eq (prop "Owner") (lit (.int 1)))
    (.binary .eq (prop "Public") (lit (.int 1)))

/-- `Price eq 3`. -/
def priceThree : Expr := .binary .eq (prop "Price") (lit (.int 3))

theorem readable_ownerOrPublic : Readable .default .filter ownerOrPublic := by
  have howner : Readable .default .filter (prop "Owner") :=
    .leaf (.word rfl rfl (s := "c.Owner") ⟨by decide, by decide, by decide⟩)
  have hpublic : Readable .default .filter (prop "Public") :=
    .leaf (.word rfl rfl (s := "c.Public") ⟨by decide, by decide, by decide⟩)
  have hone : Readable .default .filter (lit (.int 1)) :=
    .leaf (.word rfl rfl (s := "1") ⟨by decide, by decide, by decide⟩)
  exact .binary rfl (.binary rfl howner hone) (.binary rfl hpublic hone)

theorem readable_priceThree : Readable .default .filter priceThree :=
  .binary rfl (.leaf (.word rfl rfl (s := "c.Price") ⟨by decide, by decide, by decide⟩))
    (.leaf (.word rfl rfl (s := "3") ⟨by decide, by decide, by decide⟩))

end Expr

/-- A field named by a word is a word. -/
theorem Formatter.isLeafWord_field {f : Formatter}
    (hd : f.provider.dialect = .documentDB ∨ f.provider.dialect = .bracketed)
    (halias : IsUnquotedWord f.aliasText) {name : String} (hname : IsUnquotedWord name) :
    IsLeafWord (f.field name) := by
  have hroot := isOneWord_of_unquoted halias.no_separator halias.no_quote
  rw [field]
  rcases hd with hd | hd
  · have hstrip : isOneWord false (Text.strip name).toList = true :=
      isOneWord_of_unquoted (fun c hc => hname.no_separator c (Text.mem_of_mem_strip hc))
        (fun hc => hname.no_quote (Text.mem_of_mem_strip hc))
    rw [hd, Dialect.documentDB]
    refine isLeafWord_of_mem (c := '.') (by simp) (by simp) ?_
    simp only [String.toList_append]
    exact isOneWord_append (isOneWord_append hroot rfl) hstrip
  · have hplain := isOneWord_of_unquoted hname.no_separator hname.no_quote
    rw [hd, Dialect.bracketed]
    refine isLeafWord_of_mem (c := '[') (by simp) (by simp) ?_
    simp only [String.toList_append]
    exact isOneWord_append (isOneWord_append (isOneWord_append hroot rfl) hplain) rfl

namespace Assembler

variable {a : Assembler}

/-- Next to another predicate, a filter is read as an operand of `AND`. -/
theorem conjunct_spells {e : Expr} (h : e.Readable a.formatter .filter) :
    ∃ t, a.conjunct e = .ok t ∧ Spells t (.enclose .and (e.written a.formatter .filter)) ∧
      BinaryOp.and.level ≤ (Phrase.enclose .and (e.written a.formatter .filter)).level := by
  obtain ⟨s, hs, hsp⟩ := h.spells
  obtain ⟨t, ht, htp, hlevel⟩ :=
    h.operandText_eq (show BinaryOp.and.isCondition = true from rfl) hsp
  refine ⟨t, ?_, htp, hlevel⟩
  simp only [conjunct, Expr.renderFilter, hs, bind, Except.bind]
  exact ht

/-! ## Typed queries -/

/-- The discriminator as it is read. -/
def typeCondition (a : Assembler) (typeName : String) : Phrase :=
  .binary .eq (.word (a.formatter.field a.settings.typeField))
    (.word ("'" ++ Text.upper typeName ++ "'"))

theorem discriminator_spells {typeName : String}
    (hfield : IsLeafWord (a.formatter.field a.settings.typeField))
    (hquote : '\'' ∉ (Text.upper typeName).toList) :
    Spells (a.discriminator typeName) (a.typeCondition typeName) := by
  have hliteral : IsLeafWord ("'" ++ Text.upper typeName ++ "'") := by
    refine isLeafWord_of_mem (c := '\'') (by simp) (by simp) ?_
    simpa using isOneWord_quoted hquote
  have htext : a.formatter.field a.settings.typeField ++ " " ++ "=" ++ " " ++
      ("'" ++ Text.upper typeName ++ "'") =
      a.discriminator typeName := String.toList_inj.1 (by simp [discriminator])
  rw [← htext]
  exact spells_binary (show BinaryOp.eq.symbol? = some "=" from rfl) (spellsAtom_word hfield).spells
    (spellsAtom_word hliteral).spells
    (by simp [BinaryOp.level, Phrase.level]) (by simp [BinaryOp.level, Phrase.level])

/-- The conjuncts of the filter, if there is one. -/
def filterConjuncts (a : Assembler) (o : QueryOptions) : List Phrase :=
  (o.filter.map (·.conjuncts a.formatter .filter)).getD []

/-- The predicate of a typed query is the discriminator and the filter. -/
theorem typedPredicate_spells {o : QueryOptions} {typeName : String}
    (hfield : IsLeafWord (a.formatter.field a.settings.typeField))
    (hquote : '\'' ∉ (Text.upper typeName).toList)
    (hf : ∀ e, o.filter = some e → e.Readable a.formatter .filter) :
    ∃ w x, a.typedPredicate o typeName = .ok w ∧ Spells w x ∧
      x.bare.conjuncts = a.typeCondition typeName :: a.filterConjuncts o := by
  have hd := discriminator_spells hfield hquote
  cases ho : o.filter with
  | none => exact ⟨_, _, by rw [typedPredicate, ho], hd, by rw [filterConjuncts, ho]; rfl⟩
  | some e =>
    obtain ⟨t, ht, htp, hlevel⟩ := conjunct_spells (hf e ho)
    have hand := hd.and htp (by simp [typeCondition, BinaryOp.level, Phrase.level]) hlevel
    refine ⟨a.discriminator typeName ++ " AND " ++ t, _, ?_, hand, ?_⟩
    · simp only [typedPredicate, ho, ht, bind, Except.bind]
      rfl
    · rw [Phrase.bare_graft _ (Expr.tight_enclose (Expr.tight_written e)),
        Phrase.conjuncts_graft_and, Expr.bare_enclose_written, filterConjuncts, ho]
      rfl

/-- The `WHERE` clause of a typed query is the conjunction of the discriminator and the filter,
whatever the filter is. -/
theorem query_conjuncts {o : QueryOptions} {typeName : String}
    (hd : a.formatter.provider.dialect = .documentDB ∨ a.formatter.provider.dialect = .bracketed)
    (halias : IsUnquotedWord a.formatter.aliasText) (hfield : IsUnquotedWord a.settings.typeField)
    (hne : typeName ≠ "") (hquote : '\'' ∉ (Text.upper typeName).toList)
    (hf : ∀ e, o.filter = some e → e.Readable a.formatter .filter) (parser : SqlParser)
    (feed : Feed) :
    ∃ w x, read w = some x ∧ x.bare.conjuncts = a.typeCondition typeName :: a.filterConjuncts o ∧
      ∀ sql, (a.query parser o typeName feed).2.result = .ok sql ↔
        (∃ feed', paged o.limit feed = .ok feed') ∧
          ∃ tail, a.IsOrderTail tail o.orderBy ∧
            sql = "SELECT * FROM " ++ a.formatter.aliasText ++ " WHERE " ++ w ++ tail := by
  obtain ⟨w, x, hw, hsp, hconj⟩ :=
    typedPredicate_spells (Formatter.isLeafWord_field hd halias hfield) hquote hf
  refine ⟨w, x, hsp.read_eq, hconj, fun sql => ?_⟩
  rw [query_result_eq_ok, queryText_eq_ok hne hw, and_comm]

theorem query_conjuncts_ownerOrPublic :
    (plain.query (fun _ => .select) { filter := some (.convert .ownerOrPublic none) }
        "Product" {}).2.result =
        .ok "SELECT * FROM c WHERE c._t = 'PRODUCT' AND (c.Owner = 1 OR c.Public = 1)" ∧
      ∃ w x, read w = some x ∧
        x.bare.conjuncts =
          [plain.typeCondition "Product", Expr.ownerOrPublic.outline .default .filter] ∧
        (plain.query (fun _ => .select) { filter := some (.convert .ownerOrPublic none) }
          "Product" {}).2.result =
          .ok ("SELECT * FROM c WHERE " ++ w) := by
  refine ⟨rfl, ?_⟩
  have halias : IsUnquotedWord "c" := ⟨by decide, by simp [isSeparator], by decide⟩
  have hfield : IsUnquotedWord "_t" := ⟨by decide, by simp [isSeparator], by decide⟩
  obtain ⟨w, x, hread, hconj, hresult⟩ := query_conjuncts (a := plain)
    (o := { filter := some (.convert .ownerOrPublic none) }) (.inl rfl) halias hfield
    (show "Product" ≠ "" by decide) (by decide)
    (fun e he => Option.some.inj he ▸ .convert Expr.readable_ownerOrPublic) (fun _ => .select) {}
  have htext : "SELECT * FROM c WHERE " ++ w = "SELECT * FROM " ++ "c" ++ " WHERE " ++ w ++ "" :=
    String.toList_inj.1 (by simp)
  exact ⟨w, x, hread, hconj, (hresult _).2 ⟨⟨_, rfl⟩, "", rfl, htext⟩⟩

/-! ## Chosen clauses -/

theorem whereParts_eq {o : QueryOptions} {filter : Expr} {c : Clauses} {extra t : String}
    (hfilter : o.filter = some filter) (hc : c.filter = true) (ht : a.conjunct filter = .ok t)
    (hextra : extra ≠ "") (hne : t ≠ "") :
    a.whereParts o c (some extra) = .ok ["WHERE " ++ (extra ++ " AND " ++ t)] := by
  have hps : a.predicates o (some extra) = .ok [extra, t] := by
    rw [predicates_of_filter hfilter hextra, ht, Except.map, if_neg hne]
  simp only [whereParts, hc, hps, bind, Except.bind]
  rfl

/-- The clauses have a text if all wanted ones have. -/
theorem clauses_result_eq_ok {parser : SqlParser} {o : QueryOptions} {c : Clauses}
    {extra : Option String} {w : String} (hw : a.whereParts o c extra = .ok ["WHERE " ++ w])
    (sql : String) :
    (a.clauses parser o c extra).result = .ok sql ↔
      ∃ select order, a.selectParts o c = .ok select ∧
        a.orderParts (if c.orderBy then o.orderBy else none) = .ok order ∧
        sql = " ".intercalate (select ++ ["WHERE " ++ w] ++ order) := by
  rw [clauses_result, clauseText, hw]
  cases a.selectParts o c with
  | error e => simp [bind, Except.bind]
  | ok select =>
    cases a.orderParts (if c.orderBy then o.orderBy else none) with
    | error e => simp [bind, Except.bind, Except.mapError]
    | ok order => simp [bind, Except.bind, Except.mapError, pure, Except.pure, eq_comm]

/-- An extra predicate and the filter are conjoined exactly if the extra predicate is no
disjunction.  Behind a disjunction, the filter restricts the last disjunct only. -/
theorem clauses_conjuncts {f : Formatter} {mode : Mode} {e filter : Expr} {extra : String}
    {o : QueryOptions} {c : Clauses} (he : e.Readable f mode) (hextra : e.render f mode = .ok extra)
    (hfilter : o.filter = some filter) (hf : filter.Readable a.formatter .filter)
    (hc : c.filter = true) (parser : SqlParser) :
    ∃ w x, read w = some x ∧
      (x.bare.conjuncts = e.conjuncts f mode ++ filter.conjuncts a.formatter .filter ↔
        e.isDisjunction = false) ∧
      (e.isDisjunction = false →
        ∀ σ, x.bare.holds σ = (e.holds f mode σ && filter.holds a.formatter .filter σ)) ∧
      (∀ σ, x.bare.holds σ = e.holdsWith f mode σ (filter.holds a.formatter .filter σ)) ∧
      ∀ sql, (a.clauses parser o c (some extra)).result = .ok sql ↔
        ∃ select order, a.selectParts o c = .ok select ∧
          a.orderParts (if c.orderBy then o.orderBy else none) = .ok order ∧
          sql = " ".intercalate (select ++ ["WHERE " ++ w] ++ order) := by
  obtain ⟨t, ht, htp, hlevel⟩ := conjunct_spells hf
  obtain ⟨s, x, hs, hsp, hx⟩ :=
    he.spells_and htp hlevel (Expr.tight_enclose (Expr.tight_written filter))
  obtain rfl := Except.ok.inj (hextra.symm.trans hs)
  have hbare : (Phrase.enclose .and (filter.written a.formatter .filter)).bare = _ :=
    Expr.bare_enclose_written .and filter
  have hholds : ∀ σ, x.bare.holds σ =
      e.holdsWith f mode σ (filter.holds a.formatter .filter σ) := by
    intro σ
    rw [hx.holds, hbare]
    rfl
  have hparts := whereParts_eq hfilter hc ht (he.text_ne_empty hextra) htp.ne_empty
  refine ⟨_, x, hsp.read_eq, ?_, fun hdisj σ => ?_, hholds, clauses_result_eq_ok hparts⟩
  · rw [← hx.conjuncts_iff, hbare]
    rfl
  · rw [hholds, Expr.holdsWith_of_not_disjunction hdisj]

theorem clauses_conjuncts_ownerOrPublic :
    (plain.clauses (fun _ => .select) { filter := some .priceThree } { filter := true }
        (some "c.Owner = 1 OR c.Public = 1")).result =
          .ok "WHERE c.Owner = 1 OR c.Public = 1 AND c.Price = 3" ∧
      ∃ w x, read w = some x ∧
        x.bare.conjuncts ≠
          Expr.ownerOrPublic.conjuncts .default .filter ++
            Expr.priceThree.conjuncts .default .filter ∧
        (∀ σ, (Expr.binary .eq (.prop "Owner") (.lit (.int 1))).holds .default .filter σ = true →
          x.bare.holds σ = true) ∧
        (plain.clauses (fun _ => .select) { filter := some .priceThree } { filter := true }
          (some "c.Owner = 1 OR c.Public = 1")).result = .ok ("WHERE " ++ w) := by
  refine ⟨rfl, ?_⟩
  obtain ⟨w, x, hread, hconj, -, hholds, hresult⟩ := clauses_conjuncts (a := plain)
    (o := { filter := some .priceThree }) (c := { filter := true }) Expr.readable_ownerOrPublic
    (show Expr.ownerOrPublic.render _ _ = .ok "c.Owner = 1 OR c.Public = 1" from rfl) rfl
    Expr.readable_priceThree rfl (fun _ => .select)
  refine ⟨w, x, hread, fun h => absurd (hconj.1 h) (by decide), fun σ howner => ?_, ?_⟩
  · rw [hholds, Expr.ownerOrPublic, Expr.holdsWith, howner, Bool.true_or]
  · exact (hresult _).2 ⟨[], [], rfl, rfl, rfl⟩

end Assembler

end DocQuery
