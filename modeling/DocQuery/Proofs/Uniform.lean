import DocQuery.Proofs.FirstDefect
import DocQuery.Proofs.Rendering
import DocQuery.Proofs.Template

/-!
# Uniform texts

An expression can be rendered in several ways: in either mode, or for several root aliases.  A
`Family` collects ways that one word tells apart, so that the root alias and the word for negation
are either this word or the same in every way.

* `Family.Templated F e m`: in every way, the text of `e` is the template `m` with the word of this
  way in its holes, of which there is one for every part of `e` that writes the word.  There is a
  rule for each form of expression.
* `Family.exists_template`: an expression that has a text in one of the ways has a template.
-/

namespace DocQuery

namespace Expr

/-! ## What is written where -/

/-- Is the expression a negation? -/
def isNegation : Expr → Bool
  | .unary .not _ => true
  | _ => false

/-- Is the text of the expression empty? -/
def rendersEmpty (f : Formatter) (mode : Mode) (e : Expr) : Bool :=
  match e.render f mode with
  | .ok s => s == ""
  | .error _ => false

/-- Is the expression a name that is reached from the queried document?  This takes a source that is
missing or spelled by the empty text; a call without a source is no such name. -/
def isRooted (f : Formatter) (mode : Mode) : Expr → Bool
  | .access _ _ source => source.isMissing || source.rendersEmpty f mode
  | .call _ _ source _ => !source.isMissing && source.rendersEmpty f mode
  | _ => false

end Expr

open Template DocQuery.Expr

/-- Ways to render an expression for a document database that one word tells apart. -/
structure Family (ι : Type) where
  root : ι → RootAlias
  mode : ι → Mode
  word : ι → String
  /-- The root alias, if it is left open or the same in every way. -/
  rootWord : Word
  /-- The word for negation, if it is left open or the same in every way. -/
  notWord : Word
  isTrimmed_word : ∀ i, IsTrimmed (word i).toList
  fill_rootWord : ∀ i, fill (word i) rootWord.template = (root i).text
  fill_notWord : ∀ i, fill (word i) notWord.template = (mode i).notWord

namespace Family

variable {ι : Type} {F : Family ι}

/-- The formatter of one of the ways. -/
def formatter (F : Family ι) (i : ι) : Formatter := ⟨.documentDB, F.root i⟩

/-- Does the expression itself write the word that is left open? -/
def marks (F : Family ι) (i : ι) (e : Expr) : Bool :=
  F.notWord.isHole && e.isNegation || F.rootWord.isHole && e.isRooted (F.formatter i) (F.mode i)

/-- In every way, the text of `e` is the template with the word in its holes; every hole is a word,
and there is one for every part of `e` that writes the word. -/
structure Templated (F : Family ι) (e : Expr) (m : Template) : Prop where
  render_eq : ∀ i, e.render (F.formatter i) (F.mode i) = .ok (fill (F.word i) m)
  holes_eq : ∀ i, holes m = e.nodes.countP (F.marks i)
  wordHoles : WordHoles m

/-! ## One rule for each form of expression -/

/-- An expression without parts that is written alike in every way has no holes. -/
theorem templated_leaf {e : Expr} {s : String}
    (hs : ∀ i, e.render (F.formatter i) (F.mode i) = .ok s) (hnodes : e.nodes = [e])
    (hnot : e.isNegation = false) (hroot : ∀ f mode, e.isRooted f mode = false) :
    F.Templated e (ofText s) where
  render_eq i := by rw [hs, fill_ofText]
  holes_eq i := by simp [hnodes, marks, hnot, hroot]
  wordHoles := wordHoles_ofText s

namespace Templated

variable {source body : Expr} {m : Template}

theorem convert (h : F.Templated source m) (t : Option String) :
    F.Templated (.convert source t) m where
  render_eq i := by rw [render, h.render_eq]
  holes_eq i := by simp [h.holes_eq i, nodes, marks, isNegation, isRooted]
  wordHoles := h.wordHoles

theorem namedArg (h : F.Templated source m) (name : String) :
    F.Templated (.namedArg name source) (ofText (name ++ "=") ++ m) where
  render_eq i := by
    rw [render, h.render_eq, fill_append, fill_ofText]
    rfl
  holes_eq i := by simp [h.holes_eq i, nodes, marks, isNegation, isRooted]
  wordHoles := h.wordHoles.ofText_append (by simp [Opens, ofText, opening])

theorem binary {op : BinaryOp} {l r : Expr} {ml mr : Template} {symbol : String} {wl wr : Bool}
    (hl : F.Templated l ml) (hr : F.Templated r mr) (hop : op.symbol = .ok symbol)
    (hwl : needsParens l op = .ok wl) (hwr : needsParens r op = .ok wr) :
    F.Templated (.binary op l r)
      (operand wl ml ++ (ofText (" " ++ symbol ++ " ") ++ operand wr mr)) where
  render_eq i := by
    rw [render, hop, hl.render_eq, hr.render_eq]
    simp only [bind, Except.bind, operandText_fill hwl, operandText_fill hwr]
    simp [pure, Except.pure, String.append_assoc]
  holes_eq i := by
    simp [holes_operand, hl.holes_eq i, hr.holes_eq i, nodes, marks, isNegation, isRooted,
      List.countP_append]
  wordHoles := by
    refine (WordHoles.operand hl.wordHoles wl).append
      ((WordHoles.operand hr.wordHoles wr).ofText_append ?_) ?_
    · simp [Opens, ofText, opening, List.getLast?_cons]
    · simp [ofText]

/-- A unary operator whose token is a word. -/
theorem unary {op : UnaryOp} {w : Word} (h : F.Templated source m)
    (hop : ∀ i, op.token (F.mode i) = .ok (fill (F.word i) w.template))
    (hw : ∀ i, F.marks i (.unary op source) = w.isHole) :
    F.Templated (.unary op source) (w.template ++ unaryTail source.isAtomic m) where
  render_eq i := by
    rw [fill_append, append_fill_unaryTail, render, hop, h.render_eq]
    rfl
  holes_eq i := by
    rw [holes_append, w.holes_template, holes_unaryTail, h.holes_eq i, nodes, List.countP_cons, hw]
    cases w.isHole <;> simp [Nat.add_comm]
  wordHoles := w.wordHoles_append (WordHoles.unaryTail h.wordHoles _) (closes_unaryTail _ m)

theorem not (h : F.Templated source m) :
    F.Templated (.unary .not source) (F.notWord.template ++ unaryTail source.isAtomic m) :=
  h.unary (fun i => by rw [F.fill_notWord]; rfl) fun i => by simp [marks, isNegation, isRooted]

theorem negate (h : F.Templated source m) :
    F.Templated (.unary .negate source)
      ((Word.fixed "-").template ++ unaryTail source.isAtomic m) :=
  h.unary (fun i => by rw [Word.template, fill_ofText]; rfl) fun i => by
  simp [marks, isNegation, isRooted, Word.isHole]

theorem any (h : F.Templated source m) (hbody : body.isConstant = true) :
    F.Templated (.quantifier .any source body none) (m ++ ofText "/any()") where
  render_eq i := by
    rw [render, if_pos hbody, h.render_eq, fill_append, fill_ofText]
    rfl
  holes_eq i := by
    cases body with
    | constant c => simp [h.holes_eq i, nodes, marks, isNegation, isRooted]
    | _ => simp [isConstant] at hbody
  wordHoles := h.wordHoles.append_ofText _

theorem quantifier {kind : QuantifierKind} {v : String} {ms mb : Template}
    (hs : F.Templated source ms) (hb : F.Templated body mb) (hv : Text.isBlankText v = false) :
    F.Templated (.quantifier kind source body (some v))
      (ms ++ (ofText ("/" ++ kind.name ++ "(" ++ v ++ ":") ++ (mb ++ ofText ")"))) where
  render_eq i := by
    rw [render, boundName, hs.render_eq, hb.render_eq]
    · simp [hv, bind, Except.bind, pure, Except.pure, String.append_assoc]
    · simp
  holes_eq i := by simp [hs.holes_eq i, hb.holes_eq i, nodes, marks, isNegation, isRooted]
  wordHoles := by
    refine hs.wordHoles.append ((hb.wordHoles.append_ofText _).ofText_append ?_) ?_
    · simp [Opens, ofText, opening, List.getLast?_cons]
    · simp [ofText]

/-- A text is empty in all ways or in none. -/
theorem rendersEmpty_eq (h : F.Templated source m) (i : ι) :
    source.rendersEmpty (F.formatter i) (F.mode i) = decide (m = []) := by
  rw [rendersEmpty, h.render_eq i]
  exact decide_eq_decide.2 (fill_eq_empty (F.isTrimmed_word i))

end Templated

/-! ## Sources and arguments -/

/-- The template of a source, empty if the source is missing. -/
inductive SourceTemplated (F : Family ι) (source : Expr) : Template → Prop where
  | missing : source.isMissing = true → SourceTemplated F source []
  | present {m : Template} :
      source.isMissing = false → F.Templated source m → SourceTemplated F source m

theorem renderAll_fill {args : List Expr} {ms : List Template}
    (h : List.Forall₂ F.Templated args ms) (i : ι) :
    renderAll (F.formatter i) (F.mode i) args = .ok (ms.map (fill (F.word i))) := by
  induction h with
  | nil => rfl
  | cons ha _ ih =>
    rw [renderAll, ha.render_eq, ih]
    rfl

theorem holes_flatten {args : List Expr} {ms : List Template} (h : List.Forall₂ F.Templated args ms)
    (i : ι) : holes ms.flatten = (nodesAll args).countP (F.marks i) := by
  induction h with
  | nil => rfl
  | cons ha _ ih =>
    rw [List.flatten_cons, holes_append, ha.holes_eq i, ih, nodesAll, List.countP_append]

theorem wordHoles_of_forall₂ {args : List Expr} {ms : List Template}
    (h : List.Forall₂ F.Templated args ms) : ∀ m ∈ ms, WordHoles m := by
  induction h with
  | nil => simp
  | cons ha _ ih => exact List.forall_mem_cons.2 ⟨ha.wordHoles, ih⟩

/-- The template of what is called: a name, or a name that is reached from a receiver. -/
def targetTemplate (F : Family ι) (name : String) (source : Expr) (m : Template) : Template :=
  if source.isMissing then ofText name else Template.access F.rootWord name m

namespace SourceTemplated

variable {source : Expr} {m : Template}

theorem holes_eq (h : F.SourceTemplated source m) (i : ι) :
    holes m = (if source.isMissing then [] else source.nodes).countP (F.marks i) := by
  cases h with
  | missing hs => simp [hs, holes]
  | present hs hm => simp [hs, hm.holes_eq i]

theorem wordHoles (h : F.SourceTemplated source m) : WordHoles m := by
  cases h with
  | missing => exact wordHoles_ofText ""
  | present _ hm => exact hm.wordHoles

/-- A name writes the alias itself if the template of its source is empty. -/
theorem marks_access (h : F.SourceTemplated source m) (how : Access) (name : String) (i : ι) :
    F.marks i (.access how name source) = (decide (m = []) && F.rootWord.isHole) := by
  cases h with
  | missing hs => simp [marks, isNegation, isRooted, hs]
  | present hs hm => simp [marks, isNegation, isRooted, hs, hm.rendersEmpty_eq, Bool.and_comm]

theorem access (h : F.SourceTemplated source m) (how : Access) (name : String) :
    F.Templated (.access how name source) (Template.access F.rootWord name m) where
  render_eq i := by
    rw [render, fill_access (F.isTrimmed_word i) (F.fill_rootWord i)]
    cases h with
    | missing hs =>
      rw [if_pos hs]
      rfl
    | present hs hm =>
      rw [if_neg (by simp [hs]), hm.render_eq]
      rfl
  holes_eq i := by
    rw [holes_access, h.holes_eq i, nodes, List.countP_cons, h.marks_access]
    by_cases hm : m = [] <;> cases F.rootWord.isHole <;> simp [hm]
  wordHoles := WordHoles.access h.wordHoles name

/-- So does a call, unless it has no source. -/
theorem holes_target (h : F.SourceTemplated source m) (name : String) (args : List Expr)
    (kind : ResultKind) (i : ι) :
    holes (F.targetTemplate name source m) =
      holes m + if F.marks i (.call name args source kind) then 1 else 0 := by
  rw [targetTemplate]
  cases h with
  | missing hs =>
    rw [if_pos hs, holes_ofText]
    simp [hs, holes, marks, isNegation, isRooted]
  | present hs hm =>
    rw [if_neg (by simp [hs]), holes_access]
    by_cases hm' : m = [] <;> cases hroot : F.rootWord.isHole <;>
      simp [hm', hroot, hs, marks, isNegation, isRooted, hm.rendersEmpty_eq]

theorem call (h : F.SourceTemplated source m) {args : List Expr} {ms : List Template}
    (hargs : List.Forall₂ F.Templated args ms) (name : String) (kind : ResultKind) :
    F.Templated (.call name args source kind)
      (F.targetTemplate name source m ++
        (ofText "(" ++ ((ofText ",").intercalate ms ++ ofText ")"))) where
  render_eq i := by
    rw [render, renderAll_fill hargs]
    simp only [fill_append, fill_ofText, fill_intercalate, targetTemplate]
    cases h with
    | missing hs =>
      rw [if_pos hs, if_pos hs, fill_ofText]
      simp [bind, Except.bind, pure, Except.pure, String.append_assoc]
    | present hs hm =>
      rw [if_neg (by simp [hs]), if_neg (by simp [hs]), hm.render_eq,
        fill_access (F.isTrimmed_word i) (F.fill_rootWord i)]
      simp [bind, Except.bind, pure, Except.pure, Except.map, String.append_assoc, formatter]
  holes_eq i := by
    simp only [holes_append, h.holes_target name args kind i, holes_ofText, holes_intercalate,
      holes_flatten hargs i, h.holes_eq i, nodes, List.countP_cons, List.countP_append]
    omega
  wordHoles := by
    have htarget : WordHoles (F.targetTemplate name source m) := by
      rw [targetTemplate]
      split
      · exact wordHoles_ofText name
      · exact WordHoles.access h.wordHoles name
    refine htarget.append
      (((wordHoles_intercalate (wordHoles_of_forall₂ hargs)).append_ofText _).ofText_append ?_) ?_
    · simp [Opens, ofText, opening]
    · simp [ofText]

end SourceTemplated

/-! ## Every text has a template -/

theorem exists_templates {args : List Expr} (h : ∀ a ∈ args, ∃ m, F.Templated a m) :
    ∃ ms, List.Forall₂ F.Templated args ms := by
  induction args with
  | nil => exact ⟨[], .nil⟩
  | cons a args ih =>
    obtain ⟨m, hm⟩ := h a (by simp)
    obtain ⟨ms, hms⟩ := ih fun a ha => h a (List.mem_cons_of_mem _ ha)
    exact ⟨m :: ms, .cons hm hms⟩

/-- An expression that has a text in one of the ways has a template, and so a text in each of
them. -/
theorem exists_template {e : Expr} {s : String} (i : ι)
    (h : e.render (F.formatter i) (F.mode i) = .ok s) : ∃ m, F.Templated e m := by
  have hrendered := rendered_of_render h
  clear h
  induction hrendered with
  | constant c =>
    exact ⟨ofText (c.render (F.formatter i)), templated_leaf (fun _ => rfl) rfl rfl fun _ _ => rfl⟩
  | convert t _ ih =>
    obtain ⟨m, hm⟩ := ih
    exact ⟨m, hm.convert t⟩
  | binary hop hwl hwr _ _ ihl ihr =>
    obtain ⟨ml, hml⟩ := ihl
    obtain ⟨mr, hmr⟩ := ihr
    exact ⟨_, hml.binary hmr hop hwl hwr⟩
  | @unary op e token s hop _ ih =>
    obtain ⟨m, hm⟩ := ih
    cases op with
    | negate => exact ⟨_, hm.negate⟩
    | not => exact ⟨_, hm.not⟩
    | other n => cases hop
  | field how name hs => exact ⟨_, (SourceTemplated.missing hs).access how name⟩
  | access how name hs _ ih =>
    obtain ⟨m, hm⟩ := ih
    exact ⟨_, (SourceTemplated.present hs hm).access how name⟩
  | rangeVar name entity => exact ⟨_, templated_leaf (fun _ => rfl) rfl rfl fun _ _ => rfl⟩
  | any hbody _ ih =>
    obtain ⟨m, hm⟩ := ih
    exact ⟨_, hm.any hbody⟩
  | lambda kind hv _ _ ihs ihb =>
    obtain ⟨ms, hms⟩ := ihs
    obtain ⟨mb, hmb⟩ := ihb
    exact ⟨_, hms.quantifier hmb hv⟩
  | call name kind hs hlength _ ihargs =>
    obtain ⟨ms, hms⟩ := exists_templates (forall_mem_of_zip_left hlength ihargs)
    exact ⟨_, (SourceTemplated.missing hs).call hms name kind⟩
  | boundCall name kind hs _ hlength _ ih ihargs =>
    obtain ⟨m, hm⟩ := ih
    obtain ⟨ms, hms⟩ := exists_templates (forall_mem_of_zip_left hlength ihargs)
    exact ⟨_, (SourceTemplated.present hs hm).call hms name kind⟩
  | namedArg name _ ih =>
    obtain ⟨m, hm⟩ := ih
    exact ⟨_, hm.namedArg name⟩
  | paramAlias name => exact ⟨_, templated_leaf (fun _ => rfl) rfl rfl fun _ _ => rfl⟩
  | searchTerm text => exact ⟨_, templated_leaf (fun _ => rfl) rfl rfl fun _ _ => rfl⟩

end Family

end DocQuery
