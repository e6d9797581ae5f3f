import DocQuery.QueryOptions

/-!
# Builders

A builder loses, repeats and reorders nothing of what its steps bring along.

* `BuilderStep.kind`: the part of the options that a step is about.
* `Builder.conditions`, `Builder.sortKeys`, `Builder.selected`, `Builder.limits`,
  `Builder.searches`: what the steps of one kind bring along, in order.
* `Builder.step_eq`, `Builder.run_eq`: the builder after a step and after a run, part by part.
* `Builder.run_congr`: how steps of different kinds are mixed makes no difference.
* `Collected steps o`: the options `o` are what the steps ask for.
* `Builder.builds`: the options that are built along the way if a builder is asked for them between
  steps.
-/

namespace DocQuery

/-! ## Steps -/

/-- What a step of a builder is about. -/
inductive StepKind where
  | select | filter | orderBy | top | search
  deriving DecidableEq, Repr

namespace BuilderStep

def kind : BuilderStep → StepKind
  | .select _ => .select
  | .filter _ => .filter
  | .orderBy .. => .orderBy
  | .top _ => .top
  | .search _ => .search

def names : BuilderStep → List String
  | .select names => names
  | _ => []

def conditions : BuilderStep → List Expr
  | .filter condition => [condition]
  | _ => []

def sortKeys : BuilderStep → List OrderItem
  | .orderBy expr true => [⟨expr, .descending⟩]
  | .orderBy expr false => [⟨expr, .ascending⟩]
  | _ => []

def limits : BuilderStep → List Value
  | .top n => [n]
  | _ => []

def searches : BuilderStep → List Expr
  | .search expr => [expr]
  | _ => []

/-- What only steps of one kind bring along is there without the steps of other kinds. -/
theorem flatMap_filter_kind {α : Type} {g : BuilderStep → List α} {k : StepKind}
    (hg : ∀ s, s.kind ≠ k → g s = []) (steps : List BuilderStep) :
    (steps.filter (·.kind = k)).flatMap g = steps.flatMap g := by
  induction steps with
  | nil => rfl
  | cons s steps ih =>
    by_cases hs : s.kind = k
    · rw [List.filter_cons_of_pos (by simpa using hs), List.flatMap_cons, List.flatMap_cons, ih]
    · rw [List.filter_cons_of_neg (by simpa using hs), List.flatMap_cons, hg s hs, ih,
        List.nil_append]

end BuilderStep

namespace Builder

/-- The conditions of the steps. -/
def conditions (steps : List BuilderStep) : List Expr := steps.flatMap (·.conditions)

/-- The sort keys of the steps. -/
def sortKeys (steps : List BuilderStep) : List OrderItem := steps.flatMap (·.sortKeys)

/-- The selected names of the steps. -/
def selected (steps : List BuilderStep) : List String := steps.flatMap (·.names)

/-- The limits of the steps. -/
def limits (steps : List BuilderStep) : List Value := steps.flatMap (·.limits)

/-- The searches of the steps. -/
def searches (steps : List BuilderStep) : List Expr := steps.flatMap (·.searches)

/-! ## Runs -/

/-- A filter with one more condition. -/
def conjoin : Option Expr → Expr → Option Expr
  | none, condition => condition.present?
  | some f, condition => some (.binary .and f condition)

/-- The builder after a step. -/
theorem step_eq (b : Builder) (s : BuilderStep) :
    b.step s =
      { filter := s.conditions.foldl conjoin b.filter
        order := b.order ++ s.sortKeys
        names := b.names ++ s.names
        top := s.limits.getLast?.getD b.top
        search := (s.searches.map Expr.present?).getLast?.getD b.search } := by
  obtain ⟨filter, order, names, top, search⟩ := b
  cases s with
  | filter condition =>
    cases filter <;> simp [step, addFilter, conjoin, BuilderStep.conditions, BuilderStep.sortKeys,
      BuilderStep.names, BuilderStep.limits, BuilderStep.searches]
  | orderBy expr descending =>
    cases descending <;>
      simp [step, BuilderStep.conditions, BuilderStep.sortKeys, BuilderStep.names,
        BuilderStep.limits, BuilderStep.searches]
  | _ =>
    simp [step, BuilderStep.conditions, BuilderStep.sortKeys, BuilderStep.names, BuilderStep.limits,
      BuilderStep.searches]

theorem run_cons (b : Builder) (s : BuilderStep) (steps : List BuilderStep) :
    b.run (s :: steps) = (b.step s).run steps := rfl

/-- The builder after a run: conditions, sort keys and names have been added, and the last limit and
the last search have replaced what was there. -/
theorem run_eq (b : Builder) (steps : List BuilderStep) :
    b.run steps =
      { filter := (conditions steps).foldl conjoin b.filter
        order := b.order ++ sortKeys steps
        names := b.names ++ selected steps
        top := (limits steps).getLast?.getD b.top
        search := ((searches steps).map Expr.present?).getLast?.getD b.search } := by
  induction steps generalizing b with
  | nil => simp [conditions, sortKeys, selected, limits, searches]
  | cons s steps ih =>
    rw [run_cons, ih, step_eq]
    simp [conditions, sortKeys, selected, limits, searches, List.getLast?_append]

/-- How steps of different kinds are mixed makes no difference. -/
theorem run_congr {steps steps' : List BuilderStep}
    (h : ∀ k, steps.filter (·.kind = k) = steps'.filter (·.kind = k)) (b : Builder) :
    b.run steps = b.run steps' := by
  have hpart : ∀ {α : Type} {g : BuilderStep → List α} (k : StepKind),
      (∀ s, s.kind ≠ k → g s = []) → steps.flatMap g = steps'.flatMap g := by
    intro α g k hg
    rw [← BuilderStep.flatMap_filter_kind hg steps, h k, BuilderStep.flatMap_filter_kind hg steps']
  have hconditions : conditions steps = conditions steps' := hpart .filter fun s hs => by
    cases s <;> trivial
  have hkeys : sortKeys steps = sortKeys steps' := hpart .orderBy fun s hs => by cases s <;> trivial
  have hnames : selected steps = selected steps' := hpart .select fun s hs => by cases s <;> trivial
  have hlimits : limits steps = limits steps' := hpart .top fun s hs => by cases s <;> trivial
  have hsearches : searches steps = searches steps' := hpart .search fun s hs => by
    cases s <;> trivial
  rw [run_eq, run_eq, hconditions, hkeys, hnames, hlimits, hsearches]

/-! ## Conditions -/

theorem foldl_conjoin_some (f : Expr) (es : List Expr) :
    es.foldl conjoin (some f) = some (es.foldl (.binary .and) f) := by
  induction es generalizing f with
  | nil => rfl
  | cons e es ih => exact ih (.binary .and f e)

/-- Conditions that are added one by one are joined by `and`. -/
theorem foldl_conjoin_none {es : List Expr} (h : ∀ e ∈ es, e.isMissing = false) :
    es.foldl conjoin none = (Expr.conj es).toOption := by
  cases es with
  | nil => rfl
  | cons e es =>
    have he : conjoin none e = some e := by simp [conjoin, Expr.present?, h e (by simp)]
    rw [List.foldl_cons, he, foldl_conjoin_some]
    rfl

/-! ## Options -/

/-- The options are what the steps ask for: their conditions joined by `and`, their sort keys and
their names, all of them in order, and the last limit and the last search. -/
structure Collected (steps : List BuilderStep) (o : QueryOptions) : Prop where
  no_filter : conditions steps = [] → o.filter = none
  filter : conditions steps ≠ [] → ∃ e, Expr.conj (conditions steps) = .ok e ∧ o.filter = some e
  no_order : sortKeys steps = [] → o.orderBy = none
  order : sortKeys steps ≠ [] → ∃ ob, o.orderBy = some ob ∧ ob.items = sortKeys steps
  no_select : selected steps = [] → o.select = none
  select : selected steps ≠ [] → o.select = some (",".intercalate (selected steps))
  top : o.top = (limits steps).getLast?.getD .null
  search : o.search = (searches steps).getLast?.bind Expr.present?

theorem filter_build {steps : List BuilderStep} (h : ∀ e ∈ conditions steps, e.isMissing = false) :
    (run {} steps).build.filter = (Expr.conj (conditions steps)).toOption := by
  rw [build, run_eq]
  exact foldl_conjoin_none h

theorem collected_build {steps : List BuilderStep}
    (h : ∀ e ∈ conditions steps, e.isMissing = false) : Collected steps (run {} steps).build := by
  have hfilter := filter_build h
  have horder : (run {} steps).order = sortKeys steps := by
    rw [run_eq]
    rfl
  have hnames : (run {} steps).names = selected steps := by
    rw [run_eq]
    rfl
  constructor
  · intro hnone
    rw [hfilter, hnone]
    rfl
  · intro hne
    obtain ⟨e, es, hes⟩ := List.exists_cons_of_ne_nil hne
    rw [hfilter, hes]
    exact ⟨es.foldl (.binary .and) e, rfl, rfl⟩
  · intro hnone
    rw [build, horder]
    exact OrderBy.ofItems?_eq_none.2 hnone
  · intro hne
    have hsome : OrderBy.ofItems? (sortKeys steps) ≠ none :=
      fun hnone => hne (OrderBy.ofItems?_eq_none.1 hnone)
    obtain ⟨ob, hob⟩ := Option.ne_none_iff_exists'.1 hsome
    rw [build, horder]
    exact ⟨ob, hob, OrderBy.ofItems?_eq_some.1 hob⟩
  · intro hnone
    simp [build, hnames, hnone]
  · intro hne
    simp [build, hnames, hne]
  · rw [build, run_eq]
  · rw [build, run_eq, List.getLast?_map]
    cases (searches steps).getLast? <;> rfl

end Builder

/-! ## Building along the way -/

/-- What is done with a builder: a step is taken, or the options collected so far are built. -/
inductive BuilderAction where
  | step (s : BuilderStep)
  | build

/-- The steps among the actions. -/
def BuilderAction.steps (actions : List BuilderAction) : List BuilderStep :=
  actions.filterMap fun
    | .step s => some s
    | .build => none

namespace Builder

/-- The options that are built along the way, in order. -/
def builds (b : Builder) : List BuilderAction → List QueryOptions
  | [] => []
  | .step s :: actions => (b.step s).builds actions
  | .build :: actions => b.build :: b.builds actions

/-- Whatever was built before, the options are those of the steps. -/
theorem getLast?_builds (b : Builder) (actions : List BuilderAction) :
    (b.builds (actions ++ [.build])).getLast? =
      some (b.run (BuilderAction.steps actions)).build := by
  induction actions generalizing b with
  | nil => rfl
  | cons action actions ih =>
    cases action with
    | step s => exact ih (b.step s)
    | build =>
      rw [List.cons_append, builds, List.getLast?_cons, ih, Option.getD_some]
      rfl

/-- A builder gives what its steps ask for, if every condition is there.  How steps of different
kinds are mixed makes no difference to the options, nor does building some along the way. -/
theorem build_collects {steps : List BuilderStep}
    (h : ∀ e ∈ conditions steps, e.isMissing = false) :
    Collected steps (run {} steps).build ∧
      (∀ steps', (∀ k, steps'.filter (·.kind = k) = steps.filter (·.kind = k)) →
        (run {} steps').build = (run {} steps).build) ∧
      ∀ actions, BuilderAction.steps actions = steps →
        (builds {} (actions ++ [.build])).getLast? = some (run {} steps).build := by
  refine ⟨collected_build h, fun steps' hsteps => ?_, fun actions hactions => ?_⟩
  · rw [run_congr hsteps]
  · rw [getLast?_builds, hactions]

/-- Steps of all kinds, mixed. -/
def mixedSteps : List BuilderStep :=
  [.filter (.prop "Active"), .select ["Name"], .top (.int 5), .orderBy (.prop "Name"),
    .filter (.prop "Public"), .select [], .select ["Id", "Name"], .top (.int (-1)),
    .orderBy (.prop "Id") true, .search (.searchTerm "red"), .filter (.prop "Cheap")]

/-- The steps of one kind after the other. -/
def sortedSteps : List BuilderStep :=
  [.search (.searchTerm "red"), .orderBy (.prop "Name"),
    .orderBy (.prop "Id") true, .filter (.prop "Active"), .filter (.prop "Public"),
    .filter (.prop "Cheap"), .top (.int 5), .top (.int (-1)), .select ["Name"], .select [],
    .select ["Id", "Name"]]

theorem build_collects_mixedSteps :
    (run {} sortedSteps).build =
        { filter := some (.binary .and (.binary .and (.prop "Active") (.prop "Public"))
            (.prop "Cheap"))
          orderBy := some (.thenBy { expr := .prop "Name" }
            (.single { expr := .prop "Id", direction := .descending }))
          select := some "Name,Id,Name"
          top := .int (-1)
          search := some (.searchTerm "red") } ∧
      (builds {} ([.step (.filter (.prop "Active")), .build] ++
          (mixedSteps.drop 1).map .step ++ [.build])).getLast? =
            some (run {} sortedSteps).build := by
  have hpresent : ∀ e ∈ conditions mixedSteps, e.isMissing = false := by
    simp [conditions, mixedSteps, BuilderStep.conditions, Expr.prop, Expr.isMissing]
  obtain ⟨-, hsorted, hbuilds⟩ := build_collects hpresent
  have hkinds : ∀ k, sortedSteps.filter (·.kind = k) = mixedSteps.filter (·.kind = k) := by
    intro k
    cases k <;> rfl
  rw [hsorted sortedSteps hkinds]
  exact ⟨rfl, hbuilds _ rfl⟩

end Builder

end DocQuery
