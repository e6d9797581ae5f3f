import DocQuery.Expr.Build

/-!
# Sort chains

`OrderBy` is a sort: a key with a direction, and the sort that decides ties, if any.  It is never
empty.

* `OrderBy.items`: the keys in order of weight.
* `OrderBy.ofItems`: the sort with the given keys; there must be one.
-/

namespace DocQuery

/-- One sort key. -/
structure OrderItem where
  expr : Expr
  direction : Direction := .ascending
  deriving Repr, Inhabited

/-- A sort by one key, or by a key and then by further ones. -/
inductive OrderBy where
  | single (item : OrderItem)
  | thenBy (item : OrderItem) (rest : OrderBy)
  deriving Repr

namespace OrderBy

/-- The sort keys in order of weight. -/
def items : OrderBy → List OrderItem
  | .single item => [item]
  | .thenBy item rest => item :: rest.items

/-- A sort by `item` and then by `rest`, if there is one. -/
def link (item : OrderItem) : Option OrderBy → OrderBy
  | none => .single item
  | some rest => .thenBy item rest

/-- The sort with the given keys. -/
def ofItems? : List OrderItem → Option OrderBy
  | [] => none
  | item :: rest => some (link item (ofItems? rest))

/-- The sort with the given keys, of which there must be one. -/
def ofItems (items : List OrderItem) : Except BuildError OrderBy :=
  match ofItems? items with
  | some o => .ok o
  | none => .error .emptyChain

@[simp] theorem items_link (item : OrderItem) (rest : Option OrderBy) :
    (link item rest).items = item :: (rest.map items).getD [] := by
  cases rest <;> rfl

theorem items_ne_nil (o : OrderBy) : o.items ≠ [] := by
  cases o <;> simp [items]

@[simp] theorem ofItems?_eq_none {items : List OrderItem} : ofItems? items = none ↔ items = [] := by
  cases items <;> simp [ofItems?]

theorem items_ofItems? (items : List OrderItem) :
    ((ofItems? items).map OrderBy.items).getD [] = items := by
  induction items with
  | nil => rfl
  | cons item rest ih => rw [ofItems?, Option.map_some, items_link, ih, Option.getD_some]

theorem ofItems?_items (o : OrderBy) : ofItems? o.items = some o := by
  induction o with
  | single item => rfl
  | thenBy item rest ih => rw [items, ofItems?, ih, link]

/-- A sort and its keys determine each other. -/
theorem ofItems?_eq_some {items : List OrderItem} {o : OrderBy} :
    ofItems? items = some o ↔ o.items = items := by
  constructor
  · intro h
    have hitems := items_ofItems? items
    rwa [h] at hitems
  · rintro rfl
    exact ofItems?_items o

end OrderBy

end DocQuery
