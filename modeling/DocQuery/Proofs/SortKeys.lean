import DocQuery.Proofs.Failures
import DocQuery.Proofs.Rendering

/-!
# Sort keys

A sort is as good as the list of its keys.  The two determine each other, and the text of a sort
lists the keys with their directions, unless one of them has no text; then the first such key
decides the error.

* `OrderBy.linked`: a sort is built from the last key on, each key in front of the sort so far.
* `OrderBy.ofItems_eq_ok`: the sort of some keys is the one that has them.
* `OrderItem.WrittenAs`, `OrderBy.render_eq_ok_iff`: what a sort with a text is written as.
* `OrderBy.render_eq_error`: why a sort has no text.
* `OrderBy.lists_items`: all of it together.
-/

namespace DocQuery

/-- The text of a sort key is that of its expression, with the direction behind it. -/
def OrderItem.WrittenAs (f : Formatter) (item : OrderItem) (t : String) : Prop :=
  ∃ s, item.expr.render f .filter = .ok s ∧
    t = s ++ if item.direction = .ascending then " ASC" else " DESC"

theorem OrderItem.render_iff_writtenAs {f : Formatter} {item : OrderItem} {t : String} :
    item.render f = .ok t ↔ item.WrittenAs f t := by
  have hword : ∀ s : String,
      s ++ " " ++ item.direction.word =
        s ++ if item.direction = .ascending then " ASC" else " DESC" := by
    intro s
    rw [String.append_assoc]
    cases item.direction <;> rfl
  rw [OrderItem.render_eq_ok, WrittenAs]
  simp only [hword]

namespace OrderBy

variable {items : List OrderItem} {o : OrderBy} {f : Formatter}

/-! ## Keys -/

/-- The sort that linking the keys gives: from the last one on, each is put in front of the sort so
far. -/
def linked (items : List OrderItem) : Option OrderBy :=
  items.reverse.foldl (fun rest item => some (link item rest)) none

theorem linked_cons (item : OrderItem) (items : List OrderItem) :
    linked (item :: items) = some (link item (linked items)) := by
  unfold linked
  rw [List.reverse_cons, List.foldl_append, List.foldl_cons, List.foldl_nil]

theorem linked_eq_ofItems? (items : List OrderItem) : linked items = ofItems? items := by
  induction items with
  | nil => rfl
  | cons item items ih => rw [linked_cons, ofItems?, ih]

/-- The sort of some keys is the one that has them. -/
theorem ofItems_eq_ok : ofItems items = .ok o ↔ o.items = items := by
  rw [← ofItems?_eq_some, ofItems]
  cases ofItems? items <;> simp

theorem exists_ofItems (h : items ≠ []) : ∃ o, ofItems? items = some o := by
  apply Option.ne_none_iff_exists'.1
  rwa [Ne, ofItems?_eq_none]

/-! ## Text -/

theorem render_eq_ok_iff {s : String} :
    o.render f = .ok s ↔ ∃ texts, List.Forall₂ (OrderItem.WrittenAs f) o.items texts ∧
      s = ", ".intercalate texts := by
  have hkeys : (fun item t => OrderItem.render f item = .ok t) = OrderItem.WrittenAs f := by
    funext item t
    exact propext OrderItem.render_iff_writtenAs
  rw [OrderBy.render_eq_ok, hkeys]

/-- The first key without a text decides the error. -/
theorem render_eq_error {err : RenderError} :
    o.render f = .error err ↔
      ∃ before item after, o.items = before ++ item :: after ∧
        (∀ x ∈ before, ∃ t, x.expr.render f .filter = .ok t) ∧
        item.expr.render f .filter = .error err := by
  -- A key fails exactly if its expression has a defect, so the first failing key is the first one
  -- with a defect.
  have hfine : ∀ e : Expr, (∃ t, e.render f .filter = .ok t) ↔ e.firstDefect? = none :=
    fun e => (Expr.render_failsAs e).exists_ok_iff
  have hfails : ∀ e : Expr, e.render f .filter = .error err ↔ e.firstDefect? = some err :=
    fun e => (Expr.render_failsAs e).eq_error_iff err
  rw [(o.render_failsAs f).eq_error_iff, List.findSome?_map, List.findSome?_eq_some_iff]
  simp only [hfine, hfails, Function.comp_apply, and_comm]

/-- A sort and the list of its keys determine each other, whichever way the sort is built.  Its text
lists the keys in order, each with its direction.  If it has none, the error is that of the first
key without a text. -/
theorem lists_items :
    (∀ items : List OrderItem, items ≠ [] →
      ∃ o, ofItems items = .ok o ∧ linked items = some o ∧ o.items = items) ∧
      (∀ o : OrderBy, ofItems o.items = .ok o ∧ linked o.items = some o) ∧
      ∀ (f : Formatter) (o : OrderBy),
        (∀ s, o.render f = .ok s ↔
          ∃ texts, List.Forall₂ (OrderItem.WrittenAs f) o.items texts ∧
            s = ", ".intercalate texts) ∧
        ∀ err, o.render f = .error err ↔
          ∃ before item after, o.items = before ++ item :: after ∧
            (∀ x ∈ before, ∃ t, x.expr.render f .filter = .ok t) ∧
              item.expr.render f .filter = .error err := by
  refine ⟨fun items hne => ?_, fun o => ?_,
    fun f o => ⟨fun s => render_eq_ok_iff, fun err => render_eq_error⟩⟩
  · obtain ⟨o, ho⟩ := exists_ofItems hne
    have hitems : o.items = items := ofItems?_eq_some.1 ho
    rw [linked_eq_ofItems?]
    exact ⟨o, ofItems_eq_ok.2 hitems, ho, hitems⟩
  · rw [linked_eq_ofItems?]
    exact ⟨ofItems_eq_ok.2 rfl, ofItems?_items o⟩

/-- Three keys, with a direction of each kind. -/
def priceKeys : List OrderItem :=
  [⟨.prop "Price", .descending⟩, ⟨.func "length" [.prop "Name"], .other "down"⟩,
    ⟨.prop "Name", .ascending⟩]

/-- A sort by two keys without a text, and by one with a text before them. -/
def brokenSort : OrderBy :=
  .thenBy ⟨.prop "Price", .descending⟩
    (.thenBy ⟨.unary (.other "abs") (.prop "Depth"), .ascending⟩ (.single ⟨.missing, .ascending⟩))

theorem lists_items_priceKeys :
    (∃ o, ofItems priceKeys = .ok o ∧ linked priceKeys = some o ∧ o.items = priceKeys ∧
        o.render .default = .ok "c.Price DESC, length(c.Name) DESC, c.Name ASC") ∧
      brokenSort.render .default = .error (.noSymbol "abs") := by
  obtain ⟨hof, -, hrender⟩ := lists_items
  obtain ⟨o, ho, hlinked, hitems⟩ := hof priceKeys (by simp [priceKeys])
  have htext : o.render .default = .ok "c.Price DESC, length(c.Name) DESC, c.Name ASC" := by
    refine ((hrender .default o).1 _).2
      ⟨["c.Price DESC", "length(c.Name) DESC", "c.Name ASC"], ?_, rfl⟩
    rw [hitems]
    exact .cons ⟨"c.Price", rfl, rfl⟩
      (.cons ⟨"length(c.Name)", rfl, rfl⟩ (.cons ⟨"c.Name", rfl, rfl⟩ .nil))
  refine ⟨⟨o, ho, hlinked, hitems, htext⟩, ((hrender .default brokenSort).2 _).2 ?_⟩
  refine ⟨[⟨.prop "Price", .descending⟩], _, _, rfl, fun x hx => ?_, rfl⟩
  obtain rfl := List.mem_singleton.1 hx
  exact ⟨"c.Price", rfl⟩

end OrderBy

end DocQuery
