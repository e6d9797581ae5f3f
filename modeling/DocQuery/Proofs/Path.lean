import DocQuery.Proofs.Chain
import DocQuery.Proofs.Registry

/-!
# Paths

A path goes from one name to the next, from the queried document or from a variable.  Its text is
what stands for the start and then every name behind a point, without the blanks around it.

* `Expr.path`: the path with the given segments, from the start on.
* `Expr.PathStart`: what a path can start from, and the text that stands for it.
* `Expr.Leads f mode source t head`: names that are reached from `source` are written behind `head`.
* `Expr.Leads.segment`, `Expr.Leads.path`: one more segment is written behind those before it; hence
  a path of any length is.
* `Expr.render_path`: the text of a path, and of a call at its end.
-/

namespace DocQuery

open Text (strip)

/-- A segment of a path: a name, how it is reached, and the implicit conversions around it. -/
structure Segment where
  how : Access
  name : String
  conversions : List (Option String) := []

namespace Expr

/-- The expression inside of conversions. -/
def converted (e : Expr) (conversions : List (Option String)) : Expr := conversions.foldl .convert e

/-- A segment reached from a source. -/
def segment (source : Expr) (s : Segment) : Expr :=
  (Expr.access s.how s.name source).converted s.conversions

/-- The path with the given segments. -/
def path (base : Expr) (segments : List Segment) : Expr := segments.foldl segment base

/-- The head, and each name of the segments behind a point. -/
def dotted (head : String) (segments : List Segment) : String :=
  ".".intercalate (head :: segments.map fun s => strip s.name)

/-- What a path can start from, and the text that stands for it: the root alias for the queried
document, whether it is named or not, and the name of any other variable. -/
inductive PathStart (root : String) : Expr → String → Prop where
  | missing : PathStart root .missing root
  | document {e : Expr} : e.unwrap = it → PathStart root e root
  | named {e : Expr} {v : String} {entity : Bool} : e.unwrap = .rangeVar v entity → v ≠ "" →
      (v ≠ itName ∨ entity = false) → PathStart root e (strip v)

theorem dotted_cons (head : String) (s : Segment) (segments : List Segment) :
    dotted head (s :: segments) = dotted (head ++ "." ++ strip s.name) segments := by
  rw [dotted, dotted, List.map_cons, String.intercalate_cons_cons, String.intercalate_cons_append]

theorem dotted_ne_empty (head : String) {segments : List Segment} (hne : segments ≠ []) :
    dotted head segments ≠ "" := by
  obtain ⟨s, rest, rfl⟩ := List.exists_cons_of_ne_nil hne
  simp [dotted]

/-! ## Segments -/

section Segments

variable {f : Formatter} {mode : Mode} {root : RootAlias} {source : Expr} {t head : String}

@[simp] theorem render_converted (e : Expr) (conversions : List (Option String)) :
    (e.converted conversions).render f mode = e.render f mode := by
  induction conversions generalizing e with
  | nil => rfl
  | cons t conversions ih =>
    have hstep : e.converted (t :: conversions) = (Expr.convert e t).converted conversions := rfl
    rw [hstep, ih, render]

/-- The source is written as `t`, which is nothing if it is missing, and names that are reached from
it are written behind `head`. -/
structure Leads (f : Formatter) (mode : Mode) (source : Expr) (t head : String) : Prop where
  strip_head : strip head = head
  text_eq : source.isMissing = true ∧ t = "" ∨
    source.isMissing = false ∧ source.render f mode = .ok t
  access_eq : ∀ name, f.access t name = head ++ "." ++ strip name

/-- An expression without characters stands for the queried document. -/
theorem leads_of_empty (h : source.render ⟨.documentDB, root⟩ mode = .ok "") :
    Leads ⟨.documentDB, root⟩ mode source "" root.text :=
  ⟨root.strip_text, .inr ⟨isMissing_of_render h, h⟩, fun _ => rfl⟩

theorem leads_of_text (h : source.render ⟨.documentDB, root⟩ mode = .ok t) (hne : t ≠ "") :
    Leads ⟨.documentDB, root⟩ mode source t (strip t) := by
  refine ⟨Text.strip_strip t, .inr ⟨isMissing_of_render h, h⟩, fun name => ?_⟩
  rw [Formatter.access, if_neg hne]
  rfl

/-- What a path can start from leads to the names behind it. -/
theorem PathStart.leads {base : Expr} (h : PathStart root.text base head) (mode : Mode) :
    ∃ t, Leads ⟨.documentDB, root⟩ mode base t head := by
  cases h with
  | missing => exact ⟨"", root.strip_text, .inl ⟨rfl, rfl⟩, fun _ => rfl⟩
  | document hunwrap =>
    have hrender : base.render ⟨.documentDB, root⟩ mode = .ok "" := by
      rw [← render_unwrap, hunwrap]
      rfl
    exact ⟨"", leads_of_empty hrender⟩
  | @named _ v entity hunwrap hne hother =>
    have htext : rangeVarText v entity = v := by
      rcases hother with hname | hentity
      · simp [rangeVarText, hname]
      · simp [rangeVarText, hentity]
    have hrender : base.render ⟨.documentDB, root⟩ mode = .ok v := by
      rw [← render_unwrap, hunwrap, render, htext]
    exact ⟨v, leads_of_text hrender hne⟩

namespace Leads

theorem render_eq (h : Leads f mode source t head) (hne : t ≠ "") :
    source.render f mode = .ok t := by
  rcases h.text_eq with ⟨-, hempty⟩ | ⟨-, ht⟩
  · exact absurd hempty hne
  · exact ht

/-- One more segment is written behind what leads to it.  It leads on as it is written: trimming
takes nothing away. -/
theorem segment (h : Leads ⟨.documentDB, root⟩ mode source t head) (s : Segment) :
    Leads ⟨.documentDB, root⟩ mode (source.segment s) (head ++ "." ++ strip s.name)
      (head ++ "." ++ strip s.name) := by
  have hrender : (source.segment s).render ⟨.documentDB, root⟩ mode =
      .ok (head ++ "." ++ strip s.name) := by
    rw [Expr.segment, render_converted, render_access_eq_ok, ← h.access_eq]
    rcases h.text_eq with ⟨hs, rfl⟩ | ⟨hs, ht⟩
    · exact .inl ⟨hs, rfl⟩
    · exact .inr ⟨hs, t, ht, rfl⟩
  have hstrip : strip (head ++ "." ++ strip s.name) = head ++ "." ++ strip s.name :=
    Text.strip_append (Text.strip_append h.strip_head (by decide)) (Text.strip_strip s.name)
  have hleads := leads_of_text hrender (by simp)
  rwa [hstrip] at hleads

/-- A path is written name by name. -/
theorem path (h : Leads ⟨.documentDB, root⟩ mode source t head) {segments : List Segment}
    (hne : segments ≠ []) :
    Leads ⟨.documentDB, root⟩ mode (source.path segments) (dotted head segments)
      (dotted head segments) := by
  induction segments generalizing source t head with
  | nil => exact absurd rfl hne
  | cons s segments ih =>
    have hs := h.segment s
    rw [dotted_cons]
    cases segments with
    | nil => exact hs
    | cons s' segments => exact ih hs (by simp)

/-- A call on what leads to it is written as a name, with its arguments behind it. -/
theorem call (h : Leads f mode source t head) (hs : source.isMissing = false) {args : List Expr}
    {texts : List String} (hargs : List.Forall₂ (fun a t => a.render f mode = .ok t) args texts)
    (name : String) (kind : ResultKind) :
    (Expr.call name args source kind).render f mode =
      .ok (head ++ "." ++ strip name ++ "(" ++ ",".intercalate texts ++ ")") := by
  have ht : source.render f mode = .ok t := by simpa [hs] using h.text_eq
  exact render_call_eq_ok.2
    ⟨head ++ "." ++ strip name, texts, .inr ⟨hs, t, ht, (h.access_eq name).symm⟩,
      renderAll_eq_ok.2 hargs, rfl⟩

end Leads

end Segments

/-- A path is written as what stands for its start, and then each name behind a point, whatever
conversions stand between them; a call at its end has its arguments behind it.  Blanks around names
do not show. -/
theorem render_path :
    Formatter.ForEachAlias fun root f => ∀ (mode : Mode) (base : Expr) (head : String),
      PathStart root base head →
      ∀ segments : List Segment,
        (segments ≠ [] → (base.path segments).render f mode = .ok (dotted head segments)) ∧
        (∀ (name : String) (args : List Expr) (kind : ResultKind) (texts : List String),
          segments ≠ [] ∨ base.isMissing = false →
          List.Forall₂ (fun a t => a.render f mode = .ok t) args texts →
          (Expr.call name args (base.path segments) kind).render f mode =
            .ok (dotted head segments ++ "." ++ strip name ++ "(" ++
              ",".intercalate texts ++ ")")) ∧
        ∀ segments' : List Segment, segments ≠ [] →
          (segments'.map fun s => strip s.name) = (segments.map fun s => strip s.name) →
          (base.path segments').render f mode = (base.path segments).render f mode := by
  refine Formatter.forEachAlias_of_root fun root mode base head hstart segments => ?_
  obtain ⟨t, hbase⟩ := hstart.leads mode
  have htext : ∀ segs : List Segment, segs ≠ [] →
      (base.path segs).render ⟨.documentDB, root⟩ mode = .ok (dotted head segs) :=
    fun segs hne => (hbase.path hne).render_eq (dotted_ne_empty head hne)
  refine ⟨htext segments, fun name args kind texts hreceiver hargs => ?_,
    fun segments' hne hnames => ?_⟩
  · by_cases hne : segments = []
    · -- without segments, the start itself is the receiver
      subst hne
      have hs : base.isMissing = false := by simpa using hreceiver
      rw [dotted, List.map_nil, String.intercalate_singleton]
      exact hbase.call hs hargs name kind
    · exact (hbase.path hne).call (isMissing_of_render (htext segments hne)) hargs name kind
  · have hne' : segments' ≠ [] := by
      rintro rfl
      exact hne (List.map_eq_nil_iff.1 hnames.symm)
    rw [htext segments hne, htext segments' hne', dotted, dotted, hnames]

/-- The city of an owner of a certain type, with conversions on the way and with blanks around two
of the names. -/
def ownerCity : List Segment :=
  [{ how := .navigation (some "Owners") false
     name := " Owner "
     conversions := [none, some "NS.Person"] },
    { how := .cast .singleEntity, name := "NS.Vip" },
    { how := .dynamic true, name := "\tCity", conversions := [none] }]

theorem render_path_ownerCity :
    ∃ f, Formatter.ofText .documentDB " my plot " = .ok f ∧
      ((Expr.convert it none).path ownerCity).render f .filter = .ok "my plot.Owner.NS.Vip.City" ∧
      (Expr.call " in " [lit (.text "Rome"), lit (.int 1)]
        ((var " o ").path ownerCity) .collection).render f .search =
        .ok "o.Owner.NS.Vip.City.in('Rome',1)" := by
  obtain ⟨f, hf, hpath⟩ := render_path " my plot " (by decide)
  have hcity := (hpath .filter (.convert it none) _ (.document rfl) ownerCity).1
    (by simp [ownerCity])
  have hcall :=
    (hpath .search (var " o ") _ (.named rfl (by decide) (.inl (by decide))) ownerCity).2.1 " in "
      [lit (.text "Rome"), lit (.int 1)] .collection ["'Rome'", "1"] (.inl (by simp [ownerCity]))
      (.cons rfl (.cons rfl .nil))
  refine ⟨f, hf, hcity.trans ?_, hcall.trans ?_⟩ <;> rfl

end Expr

end DocQuery
