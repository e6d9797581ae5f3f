import DocQuery.Proofs.Validation
import Mathlib.Data.List.Chain

/-!
# Spacing

A neat text is not empty, has no blanks at its ends and no two spaces in a row.  Whatever is put
together from neat texts is neat, as long as none of them vanishes; and only the queried document
has a text without characters.

* `Text.Neat`, with a rule for each way of putting texts together.
* `Expr.isDocument`: is this the queried document?  `Expr.operands`: the parts in whose place it
  must not stand.
* `Expr.Rendered.neat`: the text of an expression is neat, unless it is the queried document.
  `Expr.Presentable`: what the first needs and the second rules out.
* `Assembler.query_neat`: the text of a typed query is neat.
-/

namespace DocQuery

namespace Text

/-- No two spaces stand next to each other. -/
def SingleSpaced (s : String) : Prop := s.toList.IsChain fun c d => ¬ (c = ' ' ∧ d = ' ')

/-- The text has characters, neither starts nor ends with a blank, and has no two spaces in a
row. -/
structure Neat (s : String) : Prop where
  ne_empty : s ≠ ""
  strip_eq : strip s = s
  singleSpaced : SingleSpaced s

instance (s : String) : Decidable (SingleSpaced s) := inferInstanceAs (Decidable (List.IsChain _ _))

instance (s : String) : Decidable (Neat s) :=
  decidable_of_iff (s ≠ "" ∧ strip s = s ∧ SingleSpaced s)
    ⟨fun ⟨hne, hstrip, hsingle⟩ => ⟨hne, hstrip, hsingle⟩,
      fun ⟨hne, hstrip, hsingle⟩ => ⟨hne, hstrip, hsingle⟩⟩

namespace Neat

variable {s t : String}

theorem head_ne_space (h : Neat s) {c : Char} (hc : s.toList.head? = some c) : c ≠ ' ' := by
  have hblank := (strip_eq_self_iff.1 h.strip_eq).1 c hc
  rintro rfl
  exact absurd hblank (by decide)

theorem last_ne_space (h : Neat s) {c : Char} (hc : s.toList.getLast? = some c) : c ≠ ' ' := by
  have hblank := (strip_eq_self_iff.1 h.strip_eq).2 c hc
  rintro rfl
  exact absurd hblank (by decide)

theorem append (hs : Neat s) (ht : Neat t) : Neat (s ++ t) where
  ne_empty := by simp [hs.ne_empty]
  strip_eq := strip_append hs.strip_eq ht.strip_eq
  singleSpaced := by
    rw [SingleSpaced, String.toList_append, List.isChain_append]
    exact ⟨hs.singleSpaced, ht.singleSpaced, fun c hc _ _ hcd => hs.last_ne_space hc hcd.1⟩

/-- Two neat texts with a space between them. -/
theorem spaced (hs : Neat s) (ht : Neat t) : Neat (s ++ " " ++ t) where
  ne_empty := by simp
  strip_eq := by
    obtain ⟨hhead, -⟩ := strip_eq_self_iff.1 hs.strip_eq
    obtain ⟨-, hlast⟩ := strip_eq_self_iff.1 ht.strip_eq
    have hsne : s.toList ≠ [] := String.toList_eq_nil_iff.not.2 hs.ne_empty
    have htne : t.toList ≠ [] := String.toList_eq_nil_iff.not.2 ht.ne_empty
    rw [strip_eq_self_iff, String.toList_append, String.toList_append]
    refine ⟨fun c hc => hhead c ?_, fun c hc => hlast c ?_⟩
    · rwa [List.append_assoc, List.head?_append_of_ne_nil _ hsne] at hc
    · rwa [List.getLast?_append_of_ne_nil _ htne] at hc
  singleSpaced := by
    have hfront : (s.toList ++ " ".toList).IsChain fun c d => ¬ (c = ' ' ∧ d = ' ') :=
      List.isChain_append.2 ⟨hs.singleSpaced,
        by decide, fun c hc _ _ hcd => hs.last_ne_space hc hcd.1⟩
    rw [SingleSpaced, String.toList_append, String.toList_append]
    exact List.isChain_append.2
      ⟨hfront, ht.singleSpaced, fun _ _ d hd hcd => ht.head_ne_space hd hcd.2⟩

/-- What is left of a neat text behind a cut is neat, unless it starts with a blank. -/
theorem of_append (h : Neat (s ++ t)) (hne : t ≠ "")
    (hhead : ∀ c, t.toList.head? = some c → isBlank c = false) : Neat t where
  ne_empty := hne
  strip_eq := by
    obtain ⟨-, hlast⟩ := strip_eq_self_iff.1 h.strip_eq
    refine strip_eq_self_iff.2 ⟨hhead, fun c hc => hlast c ?_⟩
    rwa [String.toList_append,
      List.getLast?_append_of_ne_nil _ (String.toList_eq_nil_iff.not.2 hne)]
  singleSpaced := by
    have hchain := h.singleSpaced
    rw [SingleSpaced, String.toList_append, List.isChain_append] at hchain
    exact hchain.2.1

/-- Before a neat text there may also be nothing. -/
theorem behind (ht : Neat t) (hs : s = "" ∨ Neat s) : Neat (s ++ t) := by
  rcases hs with rfl | hs
  · simpa using ht
  · exact hs.append ht

theorem parens (hs : s = "" ∨ Neat s) : Neat (DocQuery.parens s) := by
  rcases hs with rfl | hs
  · decide
  · exact ((show Neat "(" by decide).append hs).append (by decide)

theorem ite_parens (h : Neat s) (wrap : Bool) : Neat (if wrap then DocQuery.parens s else s) := by
  cases wrap with
  | false => exact h
  | true => exact parens (.inr h)

/-- Neat texts with separators between them, if a separator goes between any two neat texts. -/
theorem intercalate {sep : String} (hsep : ∀ s t, Neat s → Neat t → Neat (s ++ sep ++ t))
    {texts : List String} (hne : texts ≠ []) (h : ∀ t ∈ texts, Neat t) :
    Neat (sep.intercalate texts) := by
  induction texts with
  | nil => exact absurd rfl hne
  | cons u texts ih =>
    have hu := h u (by simp)
    cases texts with
    | nil => rwa [String.intercalate_singleton]
    | cons v texts =>
      rw [String.intercalate_cons_cons]
      exact hsep u _ hu (ih (by simp) fun t ht => h t (List.mem_cons_of_mem _ ht))

theorem comma (hs : Neat s) (ht : Neat t) : Neat (s ++ "," ++ t) :=
  (hs.append (by decide)).append ht

theorem comma_space (hs : Neat s) (ht : Neat t) : Neat (s ++ ", " ++ t) := by
  have hcomma : Neat (s ++ ",") := hs.append (by decide)
  have htext : s ++ "," ++ " " = s ++ ", " := by
    rw [String.append_assoc]
    rfl
  have hspaced := hcomma.spaced ht
  rwa [htext] at hspaced

/-- What is called, with its arguments behind it. -/
theorem call (hs : Neat s) {texts : List String} (h : ∀ t ∈ texts, Neat t) :
    Neat (s ++ "(" ++ ",".intercalate texts ++ ")") := by
  have hargs : ",".intercalate texts = "" ∨ Neat (",".intercalate texts) := by
    by_cases hne : texts = []
    · exact .inl (by rw [hne, String.intercalate_nil])
    · exact .inr (intercalate (fun _ _ => comma) hne h)
  have hcall := hs.append (parens hargs)
  simpa [DocQuery.parens, String.append_assoc] using hcall

/-! ## Spelling -/

section Spelling

variable {root : RootAlias}

theorem field {name : String} (hroot : Neat root.text) (hname : Neat name) :
    Neat (Formatter.field ⟨.documentDB, root⟩ name) := by
  have hfield : Neat (root.text ++ "." ++ name) := (hroot.append (by decide)).append hname
  rwa [← hname.strip_eq] at hfield

theorem access {name : String} (hroot : Neat root.text) (hs : s = "" ∨ Neat s) (hname : Neat name) :
    Neat (Formatter.access ⟨.documentDB, root⟩ s name) := by
  rcases hs with rfl | hs
  · exact hroot.field hname
  · have hqualified : Neat (s ++ "." ++ name) := (hs.append (by decide)).append hname
    rw [Formatter.access, if_neg hs.ne_empty]
    rwa [← hs.strip_eq, ← hname.strip_eq] at hqualified

/-- Without the name of its type, a literal starts with a quote. -/
theorem enumLiteral {text : String} (htext : Neat text) (typeName : String) :
    Neat (Formatter.enumLiteral ⟨.documentDB, root⟩ text typeName) := by
  rcases Expr.enumLiteral_cases root text typeName with hkept | ⟨hcut, rest, hquote⟩
  · rwa [hkept]
  · rw [hcut] at htext
    rw [hquote] at htext ⊢
    refine htext.of_append (by simp) fun c hc => ?_
    obtain rfl : '\'' = c := by simpa using hc
    decide

end Spelling

end Neat

end Text

open Text

theorem neat_symbol {op : BinaryOp} {symbol : String} (h : op.symbol = .ok symbol) :
    Neat symbol := by
  cases op <;> cases h <;> decide

theorem neat_token {op : UnaryOp} {mode : Mode} {token : String} (h : op.token mode = .ok token) :
    Neat token := by
  cases op <;> cases mode <;> cases h <;> decide

namespace Expr

/-! ## Expressions -/

/-- Is the expression the queried document, inside of conversions or not? -/
def isDocument (e : Expr) : Bool :=
  match e.unwrap with
  | .rangeVar name entity => entity && name == itName
  | _ => false

/-- The parts that are no source: operands, arguments, the value of an argument and the body of a
quantifier. -/
def operands : Expr → List Expr
  | .binary _ left right => [left, right]
  | .unary _ operand => [operand]
  | .quantifier _ _ body _ => [body]
  | .call _ args _ _ => args
  | .namedArg _ value => [value]
  | _ => []

/-- The texts of the expression that show, those of its parts aside: the name of a type does not. -/
def shownTexts : Expr → List String
  | .constant c => if c.value.isNull then [] else [c.text]
  | e => e.ownTexts

/-- The texts of the expression are neat, and the queried document stands in it as a source only. -/
structure Tidy (e : Expr) : Prop where
  neat : ∀ t ∈ e.shownTexts, Neat t
  operands : ∀ x ∈ e.operands, x.isDocument = false

instance (e : Expr) : Decidable e.Tidy :=
  decidable_of_iff ((∀ t ∈ e.shownTexts, Neat t) ∧ ∀ x ∈ e.operands, x.isDocument = false)
    ⟨fun ⟨h, h'⟩ => ⟨h, h'⟩, fun ⟨h, h'⟩ => ⟨h, h'⟩⟩

/-- The text is neat, or there is none because the expression is the queried document. -/
def NeatUnlessDocument (e : Expr) (s : String) : Prop :=
  e.isDocument = true ∧ s = "" ∨ e.isDocument = false ∧ Neat s

variable {root : RootAlias} {mode : Mode}

theorem neat_constant {c : Constant} (h : ∀ t ∈ (Expr.constant c).shownTexts, Neat t) :
    Neat (c.render ⟨.documentDB, root⟩) := by
  unfold Constant.render
  split_ifs with hnull henum
  · decide
  · have htext : Neat c.text := h _ (by simp [shownTexts, hnull])
    exact htext.enumLiteral (c.typeName.getD "")
  · exact h _ (by simp [shownTexts, hnull])

namespace NeatUnlessDocument

variable {e : Expr} {s : String}

theorem neat (h : e.NeatUnlessDocument s) (he : e.isDocument = false) : Neat s := by
  rcases h with ⟨hdoc, -⟩ | ⟨-, hs⟩
  · simp [hdoc] at he
  · exact hs

/-- As a source, the queried document is as good as any. -/
theorem source (h : e.NeatUnlessDocument s) : s = "" ∨ Neat s := by
  rcases h with ⟨-, hs⟩ | ⟨-, hs⟩
  · exact .inl hs
  · exact .inr hs

end NeatUnlessDocument

theorem neat_args {name : String} {args : List Expr} {source : Expr} {kind : ResultKind}
    {texts : List String} (htidy : Everywhere Tidy (.call name args source kind))
    (hlength : args.length = texts.length)
    (h : ∀ p ∈ args.zip texts, p.1.Everywhere Tidy → p.1.NeatUnlessDocument p.2) :
    ∀ t ∈ texts, Neat t := by
  refine forall_mem_of_zip hlength fun p hp => ?_
  have harg : p.1 ∈ args := (List.of_mem_zip hp).1
  exact (h p hp (htidy.of_args p.1 harg)).neat (htidy.self.operands p.1 harg)

/-- Each form of expression puts neat texts together to a neat one. -/
theorem Rendered.neat {e : Expr} {s : String} (h : Rendered ⟨.documentDB, root⟩ mode e s)
    (hroot : Neat root.text) (htidy : e.Everywhere Tidy) : e.NeatUnlessDocument s := by
  -- A source may have no characters, for then the root alias or a slash comes first; an operand may
  -- not.
  induction h with
  | constant c => exact .inr ⟨rfl, neat_constant htidy.self.neat⟩
  | convert t _ ih => exact ih htidy.of_convert
  | @binary op l r symbol sl sr wl wr hop _ _ _ _ ihl ihr =>
    obtain ⟨hl, hr⟩ := htidy.of_binary
    have hleft : Neat sl := (ihl hl).neat (htidy.self.operands l (by simp [operands]))
    have hright : Neat sr := (ihr hr).neat (htidy.self.operands r (by simp [operands]))
    exact .inr ⟨rfl, ((hleft.ite_parens wl).spaced (neat_symbol hop)).spaced (hright.ite_parens wr)⟩
  | @unary op e token s hop _ ih =>
    have he : Neat s := (ih htidy.of_unary).neat (htidy.self.operands e (by simp [operands]))
    have htoken := neat_token hop
    refine .inr ⟨rfl, ?_⟩
    split_ifs
    · exact htoken.spaced he
    · exact htoken.append (.parens (.inr he))
  | field how name _ =>
    exact .inr ⟨rfl, hroot.field (htidy.self.neat name (by simp [shownTexts, ownTexts]))⟩
  | access how name hs _ ih =>
    have hname : Neat name := htidy.self.neat name (by simp [shownTexts, ownTexts])
    exact .inr ⟨rfl, hroot.access (ih (htidy.of_access hs)).source hname⟩
  | rangeVar name entity =>
    have hname : Neat name := htidy.self.neat name (by simp [shownTexts, ownTexts])
    unfold NeatUnlessDocument rangeVarText
    split_ifs with hdoc
    · exact .inl ⟨hdoc, rfl⟩
    · exact .inr ⟨eq_false_of_ne_true hdoc, hname⟩
  | any _ _ ih => exact .inr ⟨rfl, (show Neat "/any()" by decide).behind (ih htidy.of_any).source⟩
  | @lambda source body v s b kind _ _ _ ihs ihb =>
    obtain ⟨hsource, hbody⟩ := htidy.of_lambda
    have hkind : Neat kind.name := htidy.self.neat _ (by simp [shownTexts, ownTexts])
    have hv : Neat v := htidy.self.neat v (by simp [shownTexts, ownTexts])
    have hb : Neat b := (ihb hbody).neat (htidy.self.operands body (by simp [operands]))
    have hinner : Neat (v ++ ":" ++ b) := (hv.append (by decide)).append hb
    have hlambda : Neat ("/" ++ kind.name ++ parens (v ++ ":" ++ b)) :=
      ((show Neat "/" by decide).append hkind).append (.parens (.inr hinner))
    have hwhole := hlambda.behind (ihs hsource).source
    exact .inr ⟨rfl, by simpa [parens, String.append_assoc] using hwhole⟩
  | @call args source texts name kind _ hlength _ ih =>
    have hname : Neat name := htidy.self.neat name (by simp [shownTexts, ownTexts])
    exact .inr ⟨rfl, hname.call (neat_args htidy hlength ih)⟩
  | @boundCall args source s texts name kind hs _ hlength _ ihs ih =>
    have hname : Neat name := htidy.self.neat name (by simp [shownTexts, ownTexts])
    have htarget := hroot.access (ihs (htidy.of_receiver hs)).source hname
    exact .inr ⟨rfl, htarget.call (neat_args htidy hlength ih)⟩
  | @namedArg value s name _ ih =>
    have hname : Neat name := htidy.self.neat name (by simp [shownTexts, ownTexts])
    have hvalue : Neat s :=
      (ih htidy.of_namedArg).neat (htidy.self.operands value (by simp [operands]))
    exact .inr ⟨rfl, (hname.append (by decide)).append hvalue⟩
  | paramAlias name => exact .inr ⟨rfl, htidy.self.neat name (by simp [shownTexts, ownTexts])⟩
  | searchTerm text => exact .inr ⟨rfl, htidy.self.neat text (by simp [shownTexts, ownTexts])⟩

/-- Tidy all the way down, and not itself the queried document. -/
structure Presentable (e : Expr) : Prop where
  isDocument_eq : e.isDocument = false
  everywhere : e.Everywhere Tidy

instance (e : Expr) : Decidable e.Presentable :=
  decidable_of_iff (e.isDocument = false ∧ ∀ x ∈ e.visited, x.Tidy)
    ⟨fun ⟨h, h'⟩ => ⟨h, h'⟩, fun ⟨h, h'⟩ => ⟨h, h'⟩⟩

theorem Presentable.render_neat {e : Expr} {s : String} (he : e.Presentable)
    (hroot : Neat root.text) (h : e.render ⟨.documentDB, root⟩ mode = .ok s) : Neat s :=
  ((rendered_of_render h).neat hroot he.everywhere).neat he.isDocument_eq

end Expr

/-! ## Queries -/

section Orders

variable {root : RootAlias}

theorem neat_word (d : Direction) : Neat d.word := by
  unfold Direction.word
  split <;> decide

theorem OrderItem.render_neat {item : OrderItem} {s : String} (hroot : Neat root.text)
    (hitem : item.expr.Presentable) (h : item.render ⟨.documentDB, root⟩ = .ok s) : Neat s := by
  obtain ⟨t, ht, rfl⟩ := OrderItem.render_eq_ok.1 h
  exact (hitem.render_neat hroot ht).spaced (neat_word item.direction)

theorem OrderBy.render_neat {o : OrderBy} {s : String} (hroot : Neat root.text)
    (hitems : ∀ item ∈ o.items, item.expr.Presentable) (h : o.render ⟨.documentDB, root⟩ = .ok s) :
    Neat s := by
  obtain ⟨texts, htexts, rfl⟩ := OrderBy.render_eq_ok.1 h
  have hne : texts ≠ [] := by
    rintro rfl
    exact o.items_ne_nil (List.forall₂_nil_right_iff.1 htexts)
  have hneat : ∀ t ∈ texts, Neat t := by
    refine forall_mem_of_zip htexts.length_eq fun p hp => ?_
    have hitem := hitems p.1 (List.of_mem_zip hp).1
    exact OrderItem.render_neat hroot hitem (List.forall₂_zip htexts hp)
  exact .intercalate (fun _ _ => Neat.comma_space) hne hneat

end Orders

namespace Assembler

variable {root : RootAlias} {settings : Settings} {o : QueryOptions} {typeName : String}

theorem discriminator_neat (hroot : Neat root.text) (hfield : Neat settings.typeField)
    (htype : Neat (upper typeName)) :
    Neat (discriminator ⟨⟨.documentDB, root⟩, settings⟩ typeName) := by
  have hquoted : Neat ("'" ++ upper typeName ++ "'") :=
    ((show Neat "'" by decide).append htype).append (by decide)
  have hwhole := ((hroot.field hfield).spaced (show Neat "=" by decide)).spaced hquoted
  have htext : discriminator ⟨⟨.documentDB, root⟩, settings⟩ typeName =
      Formatter.field ⟨.documentDB, root⟩ settings.typeField ++ " " ++ "=" ++ " " ++
        ("'" ++ upper typeName ++ "'") :=
    String.toList_inj.1 (by simp [discriminator])
  rwa [htext]

theorem conjunct_neat {e : Expr} {s : String} (hroot : Neat root.text) (he : e.Presentable)
    (h : conjunct ⟨⟨.documentDB, root⟩, settings⟩ e = .ok s) : Neat s := by
  obtain ⟨t, wrap, ht, -, rfl⟩ := conjunct_eq_ok.1 h
  exact (he.render_neat hroot ht).ite_parens wrap

theorem typedPredicate_neat {w : String} (hroot : Neat root.text) (hfield : Neat settings.typeField)
    (htype : Neat (upper typeName)) (hfilter : ∀ e, o.filter = some e → e.Presentable)
    (h : typedPredicate ⟨⟨.documentDB, root⟩, settings⟩ o typeName = .ok w) : Neat w := by
  have hdiscriminator := discriminator_neat hroot hfield htype
  cases hf : o.filter with
  | none =>
    rw [typedPredicate_of_none hf] at h
    cases h
    exact hdiscriminator
  | some e =>
    rw [typedPredicate_of_filter hf] at h
    obtain ⟨s, hs, rfl⟩ := map_eq_ok.1 h
    have hconjunct := conjunct_neat hroot (hfilter e hf) hs
    have hwhole := (hdiscriminator.spaced (show Neat "AND" by decide)).spaced hconjunct
    simpa [String.append_assoc] using hwhole

/-- An order has a space before it, and no order adds nothing. -/
theorem isOrderTail_neat {tail w : String} (hroot : Neat root.text)
    (hitems : ∀ ob, o.orderBy = some ob → ∀ item ∈ ob.items, item.expr.Presentable)
    (h : IsOrderTail ⟨⟨.documentDB, root⟩, settings⟩ tail o.orderBy) (hw : Neat w) :
    Neat (w ++ tail) := by
  cases ho : o.orderBy with
  | none =>
    rw [ho] at h
    obtain rfl : tail = "" := h
    simpa using hw
  | some ob =>
    rw [ho] at h
    obtain ⟨t, ht, rfl⟩ := h
    have horder := OrderBy.render_neat hroot (hitems ob ho) ht
    have hwhole := (hw.spaced (show Neat "ORDER BY" by decide)).spaced horder
    simpa [String.append_assoc] using hwhole

/-- The text of a typed query has no blanks at its ends and no two spaces in a row, if the texts
that it is made of have none and the queried document stands in it as a source only. -/
theorem query_neat {parser : SqlParser} {feed : Feed} {sql : String} (hroot : Neat root.text)
    (hfield : Neat settings.typeField) (htype : Neat (upper typeName))
    (hrendered : ∀ e ∈ rendered o { filter := true, orderBy := true }, e.Presentable)
    (h : (query ⟨⟨.documentDB, root⟩, settings⟩ parser o typeName feed).2.result = .ok sql) :
    Neat sql := by
  obtain ⟨w, tail, hw, htail, rfl⟩ := queryText_tail (query_result_eq_ok.1 h).1
  have hfilter : ∀ e, o.filter = some e → e.Presentable := fun e he =>
    hrendered e (mem_rendered.2 (.inl ⟨rfl, he⟩))
  have hitems : ∀ ob, o.orderBy = some ob → ∀ item ∈ ob.items, item.expr.Presentable :=
    fun ob ho item hitem =>
      hrendered item.expr (mem_rendered.2 (.inr ⟨rfl, ob, item, ho, hitem, rfl⟩))
  have hpredicate := typedPredicate_neat hroot hfield htype hfilter hw
  have hfrom : Neat ("SELECT * FROM" ++ " " ++ root.text) :=
    (show Neat "SELECT * FROM" by decide).spaced hroot
  have hwhole := (hfrom.spaced (show Neat "WHERE" by decide)).spaced hpredicate
  refine isOrderTail_neat hroot hitems htail ?_
  simpa [String.append_assoc, Formatter.aliasText] using hwhole

/-- A filter with the queried document as the source of a path, of a call and of a quantifier, and
two sort keys. -/
def ownPlots : QueryOptions where
  filter := some (.binary .or
    (.binary .eq (.prop "Color" (.convert .it (some "NS.Plot")))
      (.constant (.enum "NS.Color" "Red")))
    (.binary .and (.anyOf .it (some "p") (.negation (.prop "Net Area" (.var "p"))))
      (.func "near" [.lit (.text "a b"), .lit .null] .it)))
  orderBy := some (.thenBy ⟨.prop "Area", .descending⟩ (.single ⟨.prop "Name", .ascending⟩))

/-- The text of that query. -/
def ownPlotsText : String :=
  "SELECT * FROM c WHERE c._t = 'PLOT' AND (c.Color = 'Red' OR /any(p:not(p.Net Area)) AND c.near('a b',null)) " ++
    "ORDER BY c.Area DESC, c.Name ASC"

theorem query_neat_ownPlots :
    (plain.query (fun _ => .select) ownPlots "Plot" {}).2.result = .ok ownPlotsText ∧
      Neat ownPlotsText := by
  have hquery : (plain.query (fun _ => .select) ownPlots "Plot" {}).2.result =
      .ok ownPlotsText := by decide +kernel
  have hrendered : ∀ e ∈ rendered ownPlots { filter := true, orderBy := true }, e.Presentable := by
    decide
  exact ⟨hquery, query_neat (by decide) (by decide) (by decide) hrendered hquery⟩

end Assembler

end DocQuery
