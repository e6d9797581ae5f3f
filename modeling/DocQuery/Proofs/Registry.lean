import DocQuery.Formatter.Registry
import DocQuery.Proofs.Results

/-!
# Runs of the registry

What a run of calls leaves behind is told by the calls: a name is bound to the first provider that
was registered under it since the name was last freed.

* `Formatter.ForEachAlias`: a statement about the formatter of every alias.
* `Registry.find?_serve`: what one call does to the binding of a name.  `Registry.find?_serveAll`:
  what a run does to it.
* `Registry.Reflects`: what a registry tells about the run that led to it.
* `Registry.Answers`: how a registry answers the calls that come next.
* `Registry.serveAll_reflects`: both hold after every run.
-/

namespace DocQuery

namespace RootAlias

variable {s : String}

theorem ofText_eq_error {e : FormatterError} :
    ofText s = .error e ↔ Text.isBlankText s = true ∧ e = .blankAlias := by
  rw [ofText]
  split
  · rename_i hblank
    simp [hblank, eq_comm]
  · rename_i hblank
    simp [hblank]

theorem ofText_eq_ok {root : RootAlias} :
    ofText s = .ok root ↔ Text.isBlankText s = false ∧ root.text = Text.strip s := by
  rw [ofText]
  split
  · rename_i hblank
    simp [hblank]
  · rename_i hblank
    obtain ⟨text, _, _⟩ := root
    simp [hblank, eq_comm]

end RootAlias

/-- The property holds of every text that is not blank, once it is trimmed, and of the formatter
with this root alias. -/
def Formatter.ForEachAlias (P : String → Formatter → Prop) : Prop :=
  ∀ aliasText, Text.isBlankText aliasText = false →
    ∃ f, ofText .documentDB aliasText = .ok f ∧ P (Text.strip aliasText) f

theorem Formatter.forEachAlias_of_root {P : String → Formatter → Prop}
    (h : ∀ root, P root.text ⟨.documentDB, root⟩) : ForEachAlias P := by
  intro aliasText hblank
  cases hroot : RootAlias.ofText aliasText with
  | error err => simp [(RootAlias.ofText_eq_error.1 hroot).1] at hblank
  | ok root =>
    refine ⟨⟨.documentDB, root⟩, by rw [ofText, hroot]; rfl, ?_⟩
    rw [← (RootAlias.ofText_eq_ok.1 hroot).2]
    exact h root

namespace Registry

/-- The provider that a call registers under a name. -/
def Call.registers? (name : String) : Call → Option Provider
  | .register p => if p.name = name then some p else none
  | _ => none

theorem names_ascending (r : Registry) : r.names.Pairwise (· < ·) := List.pairwise_map.2 r.ascending

theorem name_of_find? {r : Registry} {name : String} {p : Provider} (h : r.find? name = some p) :
    p.name = name := by
  simpa using List.find?_some h

theorem mem_names {r : Registry} {name : String} : name ∈ r.names ↔ ∃ p, r.find? name = some p := by
  constructor
  · intro h
    obtain ⟨p, hp, rfl⟩ := List.mem_map.1 h
    refine Option.ne_none_iff_exists'.1 fun hnone => ?_
    exact find?_eq_none.1 hnone p hp rfl
  · rintro ⟨p, hp⟩
    exact List.mem_map.2 ⟨p, List.mem_of_find?_eq_some hp, name_of_find? hp⟩

/-- As no two names are equal, every provider is found under its own. -/
theorem find?_name {r : Registry} {p : Provider} (hp : p ∈ r.providers) :
    r.find? p.name = some p := by
  obtain ⟨providers, hascending⟩ := r
  change providers.find? _ = _
  change p ∈ providers at hp
  induction hascending with
  | nil => cases hp
  | @cons q qs hq _ ih =>
    rcases List.mem_cons.1 hp with rfl | hp
    · exact List.find?_cons_of_pos (by simp)
    · have hne : q.name ≠ p.name := fun heq => String.lt_irrefl _ (heq ▸ hq p hp)
      rw [List.find?_cons_of_neg (by simpa using hne)]
      exact ih hp

/-! ## One call -/

theorem find?_insertOrdered {p : Provider} {l : List Provider} (hp : ∀ q ∈ l, q.name ≠ p.name)
    (name : String) :
    (insertOrdered p l).find? (·.name == name) =
      (l.find? (·.name == name)).or (if p.name = name then some p else none) := by
  induction l with
  | nil => by_cases hname : p.name = name <;> simp [insertOrdered, hname]
  | cons x xs ih =>
    have ih := ih fun q hq => hp q (List.mem_cons_of_mem _ hq)
    rw [insertOrdered]
    split
    · by_cases hname : p.name = name
      · have hnone : (x :: xs).find? (·.name == name) = none := by
          rw [List.find?_eq_none]
          intro q hq
          simpa [hname] using hp q hq
        rw [hnone]
        simp [hname]
      · rw [List.find?_cons_of_neg (by simpa using hname), if_neg hname, Option.or_none]
    · by_cases hx : x.name = name
      · rw [List.find?_cons_of_pos (by simpa using hx), List.find?_cons_of_pos (by simpa using hx),
          Option.some_or]
      · rw [List.find?_cons_of_neg (by simpa using hx),
          List.find?_cons_of_neg (by simpa using hx), ih]

section Calls

variable {r : Registry}

theorem find?_unregister (name n : String) :
    (r.unregister name).find? n = if name = n then none else r.find? n := by
  rw [find?, unregister, List.find?_filter]
  split
  · rename_i hname
    simp [hname]
  · rename_i hname
    refine congrArg (fun q => r.providers.find? q) (funext fun p => ?_)
    by_cases hp : p.name = n
    · simp [hp, Ne.symm hname]
    · simp [hp]

/-- A registration fails exactly if another provider holds the name. -/
theorem register_eq_error {p : Provider} {e : FormatterError} :
    r.register p = .error e ↔ ∃ holder, r.find? p.name = some holder ∧ holder.id ≠ p.id ∧
      e = .nameTaken p.name holder.label := by
  rw [register]
  split
  · rename_i hfind
    simp [hfind]
  · rename_i holder hfind
    by_cases hid : holder.id = p.id <;> simp [hfind, hid, eq_comm (b := e)]

theorem register_eq_ok {p : Provider} {r' : Registry} (h : r.register p = .ok r') :
    (∃ hnone, r' = r.insert p hnone) ∨ (∃ holder, r.find? p.name = some holder) ∧ r' = r := by
  rw [register] at h
  split at h
  · rename_i hnone
    cases h
    exact .inl ⟨hnone, rfl⟩
  · rename_i holder hfind
    split at h
    · cases h
      exact .inr ⟨⟨holder, hfind⟩, rfl⟩
    · cases h

/-- After a registration, the provider is filed if its name was free, and nothing has changed
otherwise. -/
theorem serve_register (r : Registry) (p : Provider) :
    (∃ hnone, (r.serve (.register p)).1 = r.insert p hnone) ∨
      (∃ holder, r.find? p.name = some holder) ∧ (r.serve (.register p)).1 = r := by
  rw [serve]
  cases h : r.register p with
  | ok r' => exact register_eq_ok h
  | error e =>
    obtain ⟨holder, hfind, -⟩ := register_eq_error.1 h
    exact .inr ⟨⟨holder, hfind⟩, rfl⟩

/-- Unless a call frees the name, it keeps the binding; a free name is bound by a registration under
it. -/
theorem find?_serve {c : Call} {name : String} (h : c ≠ .unregister name) :
    (r.serve c).1.find? name = (r.find? name).or (c.registers? name) := by
  cases c with
  | register p =>
    rw [Call.registers?]
    rcases r.serve_register p with ⟨hnone, hserve⟩ | ⟨⟨holder, hfind⟩, hserve⟩
    · rw [hserve]
      exact find?_insertOrdered (find?_eq_none.1 hnone) name
    · rw [hserve]
      by_cases hname : p.name = name
      · rw [← hname, hfind, Option.some_or]
      · rw [if_neg hname, Option.or_none]
  | unregister n =>
    have hne : n ≠ name := fun heq => h (heq ▸ rfl)
    rw [serve, find?_unregister, if_neg hne]
    exact Option.or_none.symm
  | create n aliasText => exact Option.or_none.symm

theorem find?_serve_unregister (r : Registry) (name : String) :
    (r.serve (.unregister name)).1.find? name = none := by
  rw [serve, find?_unregister, if_pos rfl]

theorem create_of_find? {name : String} {p : Provider} (h : r.find? name = some p)
    (aliasText : String) :
    r.create name aliasText = (RootAlias.ofText aliasText).map fun root => ⟨p, root⟩ := by
  rw [create, h]
  show Formatter.ofText p aliasText = _
  rw [Formatter.ofText]
  cases RootAlias.ofText aliasText <;> rfl

theorem create_of_none {name : String} (h : r.find? name = none) (aliasText : String) :
    r.create name aliasText = .error (.unknownName name r.names) := by
  rw [create, h]

/-- A formatter is refused if the name is not filed, or if it is and the alias is blank. -/
theorem create_eq_error {name aliasText : String} {e : FormatterError} :
    r.create name aliasText = .error e ↔
      r.find? name = none ∧ e = .unknownName name r.names ∨
        (∃ p, r.find? name = some p) ∧ Text.isBlankText aliasText = true ∧ e = .blankAlias := by
  cases hfind : r.find? name with
  | none =>
    rw [create_of_none hfind]
    simp [eq_comm (b := e)]
  | some p =>
    rw [create_of_find? hfind, map_eq_error, RootAlias.ofText_eq_error]
    simp

theorem create_eq_ok {name aliasText : String} {f : Formatter} :
    r.create name aliasText = .ok f ↔
      r.find? name = some f.provider ∧ Text.isBlankText aliasText = false ∧
        f.aliasText = Text.strip aliasText := by
  cases hfind : r.find? name with
  | none =>
    rw [create_of_none hfind]
    simp
  | some p =>
    rw [create_of_find? hfind, map_eq_ok]
    constructor
    · rintro ⟨root, hroot, rfl⟩
      exact ⟨rfl, RootAlias.ofText_eq_ok.1 hroot⟩
    · rintro ⟨hp, halias⟩
      obtain rfl : p = f.provider := Option.some.inj hp
      exact ⟨f.root, RootAlias.ofText_eq_ok.2 halias, rfl⟩

/-- A call that fails leaves the registry as it was. -/
theorem serve_of_error {c : Call} {e : FormatterError} (h : (r.serve c).2 = .error e) :
    (r.serve c).1 = r := by
  cases c with
  | register p =>
    rw [serve] at h ⊢
    cases hreg : r.register p with
    | ok r' =>
      rw [hreg] at h
      cases h
    | error e' => rfl
  | unregister name => cases h
  | create name aliasText => rfl

theorem serve_register_eq_error {p : Provider} {e : FormatterError} :
    (r.serve (.register p)).2 = .error e ↔ r.register p = .error e := by
  rw [serve]
  cases r.register p <;> simp

end Calls

/-! ## Runs of calls -/

section Runs

variable {r : Registry}

theorem serveAll_append (r : Registry) (before after : List Call) :
    r.serveAll (before ++ after) = (r.serveAll before).serveAll after :=
  List.foldl_append

/-- Over a run that never frees the name, a binding is kept, and a free name goes to the first
provider registered under it. -/
theorem find?_serveAll {calls : List Call} {name : String} (h : .unregister name ∉ calls) :
    (r.serveAll calls).find? name = (r.find? name).or (calls.findSome? (·.registers? name)) := by
  induction calls generalizing r with
  | nil => exact Option.or_none.symm
  | cons c calls ih =>
    obtain ⟨hc, hcalls⟩ := not_or.1 (mt List.mem_cons.2 h)
    calc (r.serveAll (c :: calls)).find? name
        = ((r.serve c).1.find? name).or (calls.findSome? (·.registers? name)) := ih hcalls
      _ = ((r.find? name).or (c.registers? name)).or (calls.findSome? (·.registers? name)) := by
          rw [find?_serve (Ne.symm hc)]
      _ = (r.find? name).or ((c.registers? name).or (calls.findSome? (·.registers? name))) :=
        Option.or_assoc
      _ = (r.find? name).or ((c :: calls).findSome? (·.registers? name)) := by
          rw [List.findSome?_cons]
          cases c.registers? name <;> rfl

/-- Whatever came before, the calls since the name was last freed decide what it is bound to. -/
theorem find?_serveAll_of_freed {before after : List Call} {name : String}
    (h : .unregister name ∉ after) :
    (r.serveAll (before ++ .unregister name :: after)).find? name =
      after.findSome? (·.registers? name) := by
  rw [serveAll_append]
  show (((r.serveAll before).serve (.unregister name)).1.serveAll after).find? name = _
  rw [find?_serveAll h, find?_serve_unregister, Option.none_or]

theorem find?_initial (name : String) :
    initial.find? name = if name = "documentdb" then some .documentDB else none := by
  split
  · rename_i hname
    subst hname
    rfl
  · rename_i hname
    refine find?_eq_none.2 fun q hq => ?_
    obtain rfl := List.mem_singleton.1 hq
    exact Ne.symm hname

end Runs

/-- The registry is the one that the calls lead to from the start. -/
structure Reflects (r : Registry) (calls : List Call) : Prop where
  own_name : ∀ p ∈ r.providers, r.find? p.name = some p
  ascending : r.names.Pairwise (· < ·)
  listed : ∀ name, name ∈ r.names ↔ ∃ p, r.find? name = some p
  /-- A name that was freed is bound to the first provider registered under it since. -/
  freed : ∀ name before after, calls = before ++ .unregister name :: after →
    .unregister name ∉ after → r.find? name = after.findSome? (·.registers? name)
  /-- A name that was never freed is bound as at the start, or else to the first provider registered
  under it. -/
  kept : ∀ name, .unregister name ∉ calls →
    r.find? name = if name = "documentdb" then some .documentDB
      else calls.findSome? (·.registers? name)

/-- How the registry answers the calls that come next. -/
structure Answers (r : Registry) : Prop where
  /-- Only freeing a name unbinds it. -/
  never_replaced : ∀ name p later, r.find? name = some p → .unregister name ∉ later →
    (r.serveAll later).find? name = some p
  register_error : ∀ p e, (r.serve (.register p)).2 = .error e ↔
    ∃ holder, r.find? p.name = some holder ∧ holder.id ≠ p.id ∧ e = .nameTaken p.name holder.label
  create_error : ∀ name aliasText e, (r.serve (.create name aliasText)).2 = .error e ↔
    r.find? name = none ∧ e = .unknownName name r.names ∨
      (∃ p, r.find? name = some p) ∧ Text.isBlankText aliasText = true ∧ e = .blankAlias
  create_ok : ∀ name aliasText answer, (r.serve (.create name aliasText)).2 = .ok answer ↔
    ∃ f, answer = some f ∧ r.find? name = some f.provider ∧ Text.isBlankText aliasText = false ∧
      f.aliasText = Text.strip aliasText
  error_unchanged : ∀ c e, (r.serve c).2 = .error e → (r.serve c).1 = r
  create_unchanged : ∀ name aliasText, (r.serve (.create name aliasText)).1 = r

theorem answers (r : Registry) : r.Answers where
  never_replaced name p later h hlater := by
    rw [find?_serveAll hlater, h, Option.some_or]
  register_error p e := serve_register_eq_error.trans register_eq_error
  create_error name aliasText e := map_eq_error.trans create_eq_error
  create_ok name aliasText answer := by
    rw [serve, map_eq_ok]
    simp only [create_eq_ok]
    constructor
    · rintro ⟨f, hf, rfl⟩
      exact ⟨f, rfl, hf⟩
    · rintro ⟨f, rfl, hf⟩
      exact ⟨f, hf, rfl⟩
  error_unchanged _ _ h := serve_of_error h
  create_unchanged _ _ := rfl

/-- After every run of calls from the start, each name is bound as the calls since it was last freed
say, and the next calls are answered accordingly. -/
theorem serveAll_reflects (calls : List Call) :
    (initial.serveAll calls).Reflects calls ∧ (initial.serveAll calls).Answers := by
  refine ⟨⟨fun p => find?_name, names_ascending _, fun name => mem_names, ?_, ?_⟩, answers _⟩
  · rintro name before after rfl hafter
    exact find?_serveAll_of_freed hafter
  · intro name hcalls
    rw [find?_serveAll hcalls, find?_initial]
    split <;> simp

-- a registration that was refused is not made good once the name is free
example :
    ((initial.serveAll [.register { Provider.bracketed with name := "documentdb" },
      .unregister "documentdb"]).find?
    "documentdb").isNone = true := rfl

end Registry

end DocQuery
