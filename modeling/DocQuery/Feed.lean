import DocQuery.Lenient

/-!
# Feed options

`Feed` holds the page size of a result feed, which is absent or positive.  `Feed.ofValue` reads it
from a value, `Feed.assign` sets it and `Feed.ofFields` finds it among the fields that a feed is
made from.
-/

namespace DocQuery

/-- The paging of a result feed. -/
structure Feed where
  maxItemCount : Option Int := none
  positive : ∀ n, maxItemCount = some n → 0 < n := by rintro _ ⟨⟩
  deriving DecidableEq, Repr

namespace Feed

/-- The feed with pages of a positive size. -/
def ofSize (n : Int) (h : 0 < n) : Feed where
  maxItemCount := some n
  positive _ hm := Option.some.inj hm ▸ h

/-- The name of the page size in messages. -/
def fieldName : String := "max_item_count"

/-- The feed for a page size: none, or a positive whole number in any of its forms. -/
def ofValue : Value → Except InputFault Feed
  | .null => .ok {}
  | v => do
    let n ← lenientInt v
    if h : 0 < n then return ofSize n h else throw .notPositive

/-- Set the page size. -/
def assign (_ : Feed) (v : Value) : Except FieldFault Feed := (ofValue v).mapError (⟨fieldName, ·⟩)

/-- The feed with the page size among the given fields; all other fields are ignored. -/
def ofFields (fields : List (String × Value)) : Except FieldFault Feed :=
  match fields.lookup fieldName with
  | some v => assign {} v
  | none => .ok {}

end Feed

end DocQuery
