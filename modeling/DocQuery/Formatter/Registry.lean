import DocQuery.Formatter.Basic

/-!
# The registry of formatters

`Registry` files providers under their names, in ascending order and at most one per name.

* `register p` files `p` unless another provider holds its name.
* `unregister name` frees a name.
* `create name alias` gives the formatter of the provider filed under `name`.
* `names` lists the names in ascending order.
* `serve` answers one of these calls, and `serveAll` a run of them.
-/

namespace DocQuery

/-- The filed providers, in ascending order of their names; no two names are equal. -/
structure Registry where
  providers : List Provider
  ascending : providers.Pairwise fun p q => p.name < q.name

namespace Registry

/-- At the start the document database alone is filed. -/
def initial : Registry := ⟨[.documentDB], List.pairwise_singleton _ _⟩

/-- The provider filed under a name. -/
def find? (r : Registry) (name : String) : Option Provider := r.providers.find? (·.name == name)

/-- The filed names, in ascending order. -/
def names (r : Registry) : List String := r.providers.map (·.name)

theorem find?_eq_none {r : Registry} {name : String} :
    r.find? name = none ↔ ∀ q ∈ r.providers, q.name ≠ name := by
  simp [find?]

/-! ## Filing -/

/-- Put a provider in its place in an ascending list. -/
def insertOrdered (p : Provider) : List Provider → List Provider
  | [] => [p]
  | q :: qs => if p.name < q.name then p :: q :: qs else q :: insertOrdered p qs

theorem mem_insertOrdered {p q : Provider} {l : List Provider} :
    q ∈ insertOrdered p l ↔ q = p ∨ q ∈ l := by
  induction l with
  | nil => simp [insertOrdered]
  | cons x xs ih =>
    rw [insertOrdered]
    split
    · simp
    · simp only [List.mem_cons, ih]
      exact or_left_comm

/-- An ascending list stays so, if the name is not in it. -/
theorem pairwise_insertOrdered {p : Provider} {l : List Provider}
    (h : l.Pairwise fun p q => p.name < q.name) (hp : ∀ q ∈ l, q.name ≠ p.name) :
    (insertOrdered p l).Pairwise fun p q => p.name < q.name := by
  induction h with
  | nil => simp [insertOrdered]
  | @cons x xs hx hxs ih =>
    rw [insertOrdered]
    split
    · rename_i hlt
      refine List.pairwise_cons.2 ⟨fun q hq => ?_, List.pairwise_cons.2 ⟨hx, hxs⟩⟩
      rcases List.mem_cons.1 hq with rfl | hq
      · exact hlt
      · exact String.lt_trans hlt (hx q hq)
    · rename_i hlt
      -- Names that are neither equal nor ascending are descending.
      have hxp : x.name < p.name := String.not_le.1 fun hle =>
        hp x (by simp) (String.le_antisymm (String.not_lt.1 hlt) hle)
      refine List.pairwise_cons.2 ⟨fun q hq => ?_, ih fun q hq => hp q (List.mem_cons_of_mem _ hq)⟩
      rcases mem_insertOrdered.1 hq with rfl | hq
      · exact hxp
      · exact hx q hq

/-- File a provider whose name is free. -/
def insert (r : Registry) (p : Provider) (h : r.find? p.name = none) : Registry where
  providers := insertOrdered p r.providers
  ascending := pairwise_insertOrdered r.ascending (find?_eq_none.1 h)

/-- File a provider under its name.  A provider that is filed already stays where it is. -/
def register (r : Registry) (p : Provider) : Except FormatterError Registry :=
  match h : r.find? p.name with
  | none => .ok (r.insert p h)
  | some holder => if holder.id = p.id then .ok r else .error (.nameTaken p.name holder.label)

/-- Free a name, if it is taken. -/
def unregister (r : Registry) (name : String) : Registry where
  providers := r.providers.filter (·.name != name)
  ascending := r.ascending.filter _

/-! ## Calls -/

/-- The formatter of the provider filed under `name`, for the alias that `aliasText` gives. -/
def create (r : Registry) (name aliasText : String) : Except FormatterError Formatter :=
  match r.find? name with
  | some p => Formatter.ofText p aliasText
  | none => .error (.unknownName name r.names)

/-- A call to the registry. -/
inductive Call where
  | register (p : Provider)
  | unregister (name : String)
  | create (name aliasText : String)

/-- Answer one call: the registry after it, and a formatter if the call asks for one.  A call that
fails leaves the registry as it was. -/
def serve (r : Registry) : Call → Registry × Except FormatterError (Option Formatter)
  | .register p => match r.register p with
    | .ok r' => (r', .ok none)
    | .error e => (r, .error e)
  | .unregister name => (r.unregister name, .ok none)
  | .create name aliasText => (r, (r.create name aliasText).map some)

/-- Answer a run of calls: the registry after it. -/
def serveAll (r : Registry) (calls : List Call) : Registry :=
  calls.foldl (fun r c => (r.serve c).1) r

end Registry

end DocQuery
