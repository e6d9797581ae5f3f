import DocQuery.Proofs.Builder
import DocQuery.Proofs.Composition
import DocQuery.Proofs.Registry

/-!
# Projections

A `SELECT` clause lists the selected fields: of the names between the commas, those that are not
blank, each without the blanks around it.

* `fieldList`: the fields of some names, as they are written.
* `Assembler.Selects a o fields`: whichever clauses are wanted besides, a `SELECT` clause projects
  these fields.
* `Assembler.projection_of_splitsInto`: the projection of a text is that of its pieces.
* `Assembler.projection_build`: the projection of a builder is that of the selected names.
* `Assembler.selects_fieldList`: hence the clauses project these fields, and no others.
-/

namespace DocQuery

open Text (strip isBlankText)

/-- The fields of the names, blank ones aside, or all fields if no name is left. -/
def fieldList (root : String) (names : List String) : String :=
  let fields := (names.filter (!isBlankText ·)).map fun name => root ++ "." ++ strip name
  if fields.isEmpty then "*" else ", ".intercalate fields

/-- The names without the blanks around them, and without those that are blank. -/
def trimmedNames (names : List String) : List String := (names.filter (!isBlankText ·)).map strip

/-- Trimmed names have the same fields. -/
theorem fieldList_trimmedNames (root : String) (names : List String) :
    fieldList root (trimmedNames names) = fieldList root names := by
  have hkept : (trimmedNames names).filter (!isBlankText ·) = trimmedNames names := by
    refine List.filter_eq_self.2 fun name hname => ?_
    obtain ⟨name', hname', rfl⟩ := List.mem_map.1 hname
    rw [Text.isBlankText_strip]
    exact (List.mem_filter.1 hname').2
  have hfields : ((trimmedNames names).map fun name => root ++ "." ++ strip name) =
      (names.filter (!isBlankText ·)).map fun name => root ++ "." ++ strip name := by
    simp [trimmedNames]
  rw [fieldList, fieldList, hkept, hfields]

namespace Assembler

section Names

variable {root : RootAlias} (settings : Settings)

theorem projection_eq_fieldList (s : String) :
    projection ⟨⟨.documentDB, root⟩, settings⟩ (some s) =
      fieldList root.text (Text.pieces ',' s) := by
  rw [projection, fieldList]
  cases (Text.pieces ',' s).filter (!isBlankText ·) with
  | nil => rfl
  | cons name names => rfl

/-- The projection of a text is that of its pieces. -/
theorem projection_of_splitsInto {s : String} {ps : List String} (h : Text.SplitsInto ',' s ps) :
    projection ⟨⟨.documentDB, root⟩, settings⟩ (some s) = fieldList root.text ps := by
  rw [projection_eq_fieldList, Text.pieces_eq_iff.2 h]

/-- The projection of names that are joined by commas is that of the names, also if there are
none. -/
theorem projection_join {names : List String} (h : ∀ name ∈ names, ',' ∉ name.toList) :
    projection ⟨⟨.documentDB, root⟩, settings⟩ (some (",".intercalate names)) =
      fieldList root.text names := by
  by_cases hne : names = []
  · subst hne
    rw [String.intercalate_nil, projection_eq_fieldList]
    rfl
  · exact projection_of_splitsInto settings ⟨hne, h, rfl⟩

theorem projection_build {steps : List BuilderStep}
    (h : ∀ name ∈ Builder.selected steps, ',' ∉ name.toList) :
    projection ⟨⟨.documentDB, root⟩, settings⟩ (Builder.run {} steps).build.select =
      fieldList root.text (Builder.selected steps) := by
  have hnames : (Builder.run {} steps).names = Builder.selected steps := by
    rw [Builder.run_eq]
    rfl
  rw [Builder.build, hnames]
  by_cases hne : Builder.selected steps = []
  · rw [hne]
    rfl
  · simp only [List.isEmpty_iff, hne, if_false]
    exact projection_join settings h

theorem projection_trimmedNames {s : String} {ps : List String} (h : Text.SplitsInto ',' s ps) :
    projection ⟨⟨.documentDB, root⟩, settings⟩ (some (",".intercalate (trimmedNames ps))) =
      projection ⟨⟨.documentDB, root⟩, settings⟩ (some s) := by
  have hcomma : ∀ name ∈ trimmedNames ps, ',' ∉ name.toList := by
    intro name hname hmem
    obtain ⟨p, hp, rfl⟩ := List.mem_map.1 hname
    exact h.not_mem p (List.mem_filter.1 hp).1 (Text.mem_of_mem_strip hmem)
  rw [projection_join settings hcomma, fieldList_trimmedNames, projection_of_splitsInto settings h]

end Names

/-! ## Clauses -/

/-- Whichever clauses are wanted besides, a `SELECT` clause projects the fields: it has them behind
the limit, if one is wanted, and the other clauses stand behind it. -/
def Selects (a : Assembler) (o : QueryOptions) (fields : String) : Prop :=
  ∀ (parser : SqlParser) (c : Clauses) (extra : Option String), c.select = true →
    (a.clauses parser o c extra).result = do
      let limit ← limitText (if c.top then o.limit else .none)
      let rest ← (a.clauses parser o { c with select := false } extra).result
      return joinTexts ["SELECT " ++ limit ++ fields ++ " " ++ a.fromClause, rest]

theorem selects_projection (a : Assembler) (o : QueryOptions) :
    a.Selects o (a.projection o.select) := by
  intro parser c extra hc
  have hwhere : a.whereParts o { c with select := false } extra = a.whereParts o c extra := rfl
  have hnone : a.selectParts o { c with select := false } = .ok [] := rfl
  rw [clauses_result, clauses_result, clauseText, clauseText, hnone, hwhere, selectParts, if_pos hc]
  cases hlimit : limitText (if c.top then o.limit else .none) with
  | error e => rfl
  | ok limit =>
    cases hfilter : a.whereParts o c extra with
    | error e => rfl
    | ok filter =>
      cases horder : a.orderParts (if c.orderBy then o.orderBy else none) with
      | error e => rfl
      | ok order =>
        have hrest : ∀ t ∈ filter ++ order, t ≠ "" := by
          intro t ht
          rcases List.mem_append.1 ht with ht | ht
          · exact Headed.ne_empty (by decide) (whereParts_eq_ok hfilter) t ht
          · exact Headed.ne_empty (by decide) (a.headed_order horder) t ht
        have hjoin := joinTexts_cons
          (s := "SELECT " ++ limit ++ a.projection o.select ++ " " ++ a.fromClause) (by simp) hrest
        exact congrArg Except.ok hjoin.symm

/-- Of the selected names, the clauses show the projection only. -/
theorem clauses_of_projection {a : Assembler} {o : QueryOptions} {select : Option String}
    (h : a.projection select = a.projection o.select) (parser : SqlParser) (c : Clauses)
    (extra : Option String) :
    a.clauses parser { o with select := select } c extra = a.clauses parser o c extra := by
  have hselect : a.selectParts { o with select := select } c = a.selectParts o c := by
    simp only [selectParts, h]
    rfl
  rw [clauses, clauses, clauseText, clauseText, clauseNotices, clauseNotices, hselect]
  rfl

/-- A `SELECT` clause projects exactly the selected fields.  For a builder these are the fields of
all names that its steps select, in order, blank ones aside, as long as no name has a comma in it;
for a text they are the fields of its pieces between commas.  So a text gives the same clauses as
the trimmed names in it. -/
theorem selects_fieldList (settings : Settings) :
    Formatter.ForEachAlias fun root f =>
      (∀ steps : List BuilderStep, (∀ name ∈ Builder.selected steps, ',' ∉ name.toList) →
        Selects ⟨f, settings⟩ (Builder.run {} steps).build
          (fieldList root (Builder.selected steps))) ∧
      ∀ (o : QueryOptions) (s : String), o.select = some s →
        ∃ ps, Text.SplitsInto ',' s ps ∧ Selects ⟨f, settings⟩ o (fieldList root ps) ∧
          ∀ parser c extra,
            clauses ⟨f, settings⟩ parser
              { o with select := some (",".intercalate (trimmedNames ps)) } c extra =
              clauses ⟨f, settings⟩ parser o c extra := by
  refine Formatter.forEachAlias_of_root fun root => ⟨fun steps hnames => ?_, fun o s hs => ?_⟩
  · rw [← projection_build settings hnames]
    exact selects_projection _ _
  · have hps := Text.splitsInto_pieces ',' s
    refine ⟨Text.pieces ',' s, hps, ?_,
      fun parser c extra => clauses_of_projection ?_ parser c extra⟩
    · rw [← projection_of_splitsInto settings hps, ← hs]
      exact selects_projection _ o
    · rw [hs]
      exact projection_trimmedNames settings hps

/-- Steps that select names with gaps between them. -/
def gappySteps : List BuilderStep :=
  [.select [" Name", "", "Id "], .top (.int 5), .select ["\t"], .select [], .select ["Name"]]

theorem selects_fieldList_gappySteps :
    ∃ f, Formatter.ofText .documentDB " p " = .ok f ∧
      (clauses ⟨f, {}⟩ (fun _ => .select)
        (Builder.run {} gappySteps).build .everything none).result =
        .ok "SELECT TOP 5 p.Name, p.Id, p.Name FROM p" ∧
      clauses ⟨f, {}⟩ (fun _ => .select) { select := some "Name,Id,Name" } .everything none =
        clauses ⟨f, {}⟩ (fun _ => .select)
          { select := some " Name,,Id ,\t,Name" } .everything none := by
  obtain ⟨f, hf, hbuild, htext⟩ := selects_fieldList {} " p " (by decide)
  have hcomma : ∀ name ∈ Builder.selected gappySteps, ',' ∉ name.toList := by decide
  have hclauses := hbuild gappySteps hcomma (fun _ => .select) .everything none rfl
  obtain ⟨ps, hps, -, hnames⟩ := htext { select := some " Name,,Id ,\t,Name" } _ rfl
  obtain rfl := Text.pieces_eq_iff.2 hps
  cases hf
  exact ⟨_, rfl, hclauses.trans rfl, hnames (fun _ => .select) .everything none⟩

end Assembler

end DocQuery
