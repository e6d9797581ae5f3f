import Mathlib.Algebra.Order.Field.Basic
import Mathlib.Algebra.Order.Field.Rat
import Mathlib.Data.Rat.Lemmas
import DocQuery.Proofs.Results

/-!
# Paging

The typed queries of a session share the page size of its feed.

* `Value.isPositive?_of_toRat?`: comparing a value with zero is comparing its number with zero.
* `Turn`: one request of a run, with the session that answers it.  `Session.turns` lists the turns
  of a run.
* `Turn.SetsPage`: the turn is a typed query with a positive limit, and it is answered with a text.
* `Turn.next_cases`: only such a turn changes the feed.
* `Session.serveAll_paging`: after a run, the page size is the limit of the last such turn.
-/

namespace DocQuery

/-! ## Limits as numbers -/

namespace Binary64

theorem mkRat_pos {n d : Nat} (hd : 0 < d) : 0 < mkRat (n : Int) d ↔ 0 < n := by
  have hd' : (0 : Rat) < d := by exact_mod_cast hd
  rw [Rat.mkRat_eq_div, div_pos_iff_of_pos_right hd']
  exact_mod_cast Iff.rfl

/-- A finite number is a magnitude with a sign, and the magnitude is zero exactly if the mantissa
is. -/
theorem exists_magnitude (negative : Bool) (m : Nat) (e : Int) :
    ∃ r : Rat, 0 ≤ r ∧ (0 < r ↔ m ≠ 0) ∧
      (finite negative m e).toRat? = some (if negative then -r else r) := by
  refine ⟨mkRat ((m * Nat.pow 2 e.toNat : Nat) : Int) (1 * Nat.pow 2 (-e).toNat),
    Rat.mkRat_nonneg (by omega) _, ?_, rfl⟩
  rw [mkRat_pos (by simp)]
  simp [Nat.pos_iff_ne_zero]

theorem isPositive_of_toRat? {x : Binary64} {q : Rat} (h : x.toRat? = some q) :
    x.isPositive = decide (0 < q) := by
  cases x with
  | finite negative m e =>
    obtain ⟨r, hnonneg, hpos, hr⟩ := exists_magnitude negative m e
    rw [hr, Option.some.injEq] at h
    subst h
    cases negative with
    | true => simpa [isPositive] using hnonneg
    | false =>
      rw [Bool.eq_iff_iff]
      simp [isPositive, hpos]
  | _ => simp [toRat?] at h

theorem toRat?_of_toInt? {x : Binary64} {n : Int} (h : x.toInt? = some n) :
    x.toRat? = some (n : Rat) := by
  rw [toInt?] at h
  cases hx : x.toRat? with
  | none => simp [hx] at h
  | some q =>
    simp only [hx, Option.ite_none_right_eq_some, Option.some.injEq] at h
    obtain ⟨hden, rfl⟩ := h
    rw [Rat.coe_int_num_of_den_eq_one hden]

end Binary64

namespace Value

/-- Comparing a value with zero is comparing its number with zero. -/
theorem isPositive?_of_toRat? {v : Value} {q : Rat} (h : v.toRat? = some q) :
    v.isPositive? = some (decide (0 < q)) := by
  cases v with
  | bool b =>
    cases h
    cases b <;> rfl
  | int n =>
    cases h
    simp [isPositive?]
  | float x => rw [isPositive?, Binary64.isPositive_of_toRat? h]
  | _ => simp [toRat?] at h

/-- A value that compares with zero is the whole number that it is read as; a text is read as a
number but does not compare. -/
theorem toRat?_of_lenientInt {v : Value} {b : Bool} {n : Int} (hb : v.isPositive? = some b)
    (h : lenientInt v = .ok n) : v.toRat? = some (n : Rat) := by
  cases v with
  | bool b =>
    cases h
    cases b <;> rfl
  | int m =>
    cases h
    rfl
  | float x =>
    rw [lenientInt] at h
    cases hx : x.toInt? with
    | none => split at h <;> simp [wholeWord, hx] at h
    | some m =>
      split at h
      · simp only [wholeWord, hx] at h
        split at h
        · cases h
          exact Binary64.toRat?_of_toInt? hx
        · cases h
      · cases h
  | _ => simp [isPositive?] at hb

end Value

/-- What a value amounts to as a limit is decided by how it compares with zero; a null is no
limit. -/
theorem Limit.ofValue_cases (v : Value) :
    Limit.ofValue v = .none ∧ (v = .null ∨ v.isPositive? = some false) ∨
      Limit.ofValue v = .positive v ∧ v.isPositive? = some true ∨
      Limit.ofValue v = .incomparable ∧ v.isPositive? = Option.none := by
  cases v with
  | null => exact .inl ⟨rfl, .inl rfl⟩
  | bool b => cases b <;> simp [ofValue, Value.isPositive?]
  | int n => by_cases hn : 0 < n <;> simp [ofValue, Value.isPositive?, hn]
  | float x => cases hx : x.isPositive <;> simp [ofValue, Value.isPositive?, hx]
  | _ => simp [ofValue, Value.isPositive?]

namespace Assembler

/-- A limit that is a positive number becomes the page size; any other one leaves the feed as it
is. -/
theorem paged_cases {v : Value} {feed feed' : Feed} (h : paged (.ofValue v) feed = .ok feed') :
    (∃ (n : Int) (hn : 0 < n), v.toRat? = some (n : Rat) ∧ feed' = .ofSize n hn) ∨
      (∀ n : Int, 0 < n → v.toRat? ≠ some (n : Rat)) ∧ feed' = feed := by
  rcases Limit.ofValue_cases v with ⟨hlimit, hv⟩ | ⟨hlimit, hv⟩ | ⟨hlimit, -⟩
  · rw [hlimit, paged] at h
    cases h
    refine .inr ⟨fun n hn hrat => ?_, rfl⟩
    have hpos := Value.isPositive?_of_toRat? hrat
    rcases hv with rfl | hv
    · simp [Value.isPositive?] at hpos
    · rw [hv, Option.some.injEq, eq_comm, decide_eq_false_iff_not, Rat.intCast_pos] at hpos
      exact hpos hn
  · rw [hlimit, paged] at h
    rcases Feed.assign_eq_ok.1 (mapError_eq_ok.1 h) with ⟨rfl, -⟩ | ⟨n, hn0, hn, rfl⟩
    · simp [Value.isPositive?] at hv
    · exact .inl ⟨n, hn0, Value.toRat?_of_lenientInt hv hn, rfl⟩
  · rw [hlimit, paged] at h
    cases h

/-- A typed query has a text and the feed takes the limit, or it fails and leaves the feed as it
is. -/
theorem query_feed (a : Assembler) (parser : SqlParser) (o : QueryOptions) (typeName : String)
    (feed : Feed) :
    (∃ sql, (a.query parser o typeName feed).2.result = .ok sql ∧
        paged o.limit feed = .ok (a.query parser o typeName feed).1) ∨
      ∃ e, (a.query parser o typeName feed).2.result = .error e ∧
        (a.query parser o typeName feed).1 = feed := by
  rw [query_result]
  cases h : a.pagedText o typeName feed with
  | error e => exact .inr ⟨e, rfl, by simp only [query, h]⟩
  | ok p =>
    have hfeed : (a.query parser o typeName feed).1 = p.1 := by simp only [query, h]
    rw [pagedText] at h
    obtain ⟨sql, -, h⟩ := bind_eq_ok.1 h
    obtain ⟨feed', hpaged, h⟩ := bind_eq_ok.1 h
    cases h
    exact .inl ⟨sql, rfl, by rw [hfeed, hpaged]⟩

end Assembler

/-! ## Turns -/

/-- The options of a request. -/
def Request.options : Request → QueryOptions
  | .query o _ | .clauses o _ _ | .tryClauses o _ _ => o

/-- One request of a run, with the session that answers it. -/
structure Turn where
  session : Session
  parser : SqlParser
  request : Request

namespace Turn

/-- What the request is answered with. -/
def answer (t : Turn) : Except Assembler.Failure (Option String) :=
  (t.session.serve t.parser t.request).2.result

/-- The session after the request. -/
def next (t : Turn) : Session := (t.session.serve t.parser t.request).1

/-- The request is a typed query whose limit is the positive number `n`, and it is answered with a
text. -/
def SetsPage (t : Turn) (n : Int) : Prop :=
  0 < n ∧ ∃ o typeName sql, t.request = .query o typeName ∧ o.top.toRat? = some (n : Rat) ∧
    t.answer = .ok (some sql)

theorem answer_query (s : Session) (parser : SqlParser) (o : QueryOptions) (typeName : String) :
    (Turn.mk s parser (.query o typeName)).answer =
      (s.assembler.query parser o typeName s.feed).2.result.map some := rfl

theorem next_query (s : Session) (parser : SqlParser) (o : QueryOptions) (typeName : String) :
    (Turn.mk s parser (.query o typeName)).next =
      { s with feed := (s.assembler.query parser o typeName s.feed).1 } := rfl

theorem answer_clauses (s : Session) (parser : SqlParser) (o : QueryOptions) (c : Clauses)
    (extra : Option String) :
    (Turn.mk s parser (.clauses o c extra)).answer =
      ((s.assembler.clauses parser o c extra).result.map some).mapError .query := rfl

theorem answer_tryClauses (s : Session) (parser : SqlParser) (o : QueryOptions) (c : Clauses)
    (extra : Option String) :
    (Turn.mk s parser (.tryClauses o c extra)).answer =
      (s.assembler.tryClauses parser o c extra).result.mapError .query := rfl

/-- Only a turn that sets the page size changes the session. -/
theorem next_cases (t : Turn) :
    (∃ n, ∃ h : t.SetsPage n, t.next = { t.session with feed := .ofSize n h.1 }) ∨
      (∀ n, ¬ t.SetsPage n) ∧ t.next = t.session := by
  obtain ⟨s, parser, request⟩ := t
  cases request with
  | query o typeName =>
    rw [next_query]
    rcases s.assembler.query_feed parser o typeName s.feed with ⟨sql, hsql, hpaged⟩ | ⟨e, he, hfeed⟩
    · rcases Assembler.paged_cases hpaged with ⟨n, hn, htop, hfeed⟩ | ⟨hnone, hfeed⟩
      · have hanswer : (Turn.mk s parser (.query o typeName)).answer = .ok (some sql) := by
          rw [answer_query, hsql]
          rfl
        exact .inl ⟨n, ⟨hn, o, typeName, sql, rfl, htop, hanswer⟩, by rw [hfeed]⟩
      · refine .inr ⟨?_, by rw [hfeed]⟩
        rintro n ⟨hn, o', typeName', -, heq, htop, -⟩
        cases heq
        exact hnone n hn htop
    · refine .inr ⟨?_, by rw [hfeed]⟩
      rintro n ⟨-, -, -, sql, -, -, hok⟩
      rw [answer_query, he] at hok
      cases hok
  | clauses o wanted extra =>
    refine .inr ⟨?_, rfl⟩
    rintro n ⟨-, o', typeName', -, heq, -⟩
    cases heq
  | tryClauses o wanted extra =>
    refine .inr ⟨?_, rfl⟩
    rintro n ⟨-, o', typeName', -, heq, -⟩
    cases heq

/-- A request that fails leaves the session as it was. -/
theorem next_of_error {t : Turn} {e : Assembler.Failure} (h : t.answer = .error e) :
    t.next = t.session := by
  rcases t.next_cases with ⟨n, ⟨-, -, -, sql, -, -, hok⟩, -⟩ | ⟨-, hnext⟩
  · rw [h] at hok
    cases hok
  · exact hnext

/-- With a limit that is a whole number, a request fails only because the type has no name or an
expression has no text. -/
theorem failure_cases {t : Turn} (htop : t.request.options.top.isWhole = true)
    {e : Assembler.Failure} (h : t.answer = .error e) :
    e = .query .noTypeName ∨ ∃ err, e = .query (.render err) := by
  obtain ⟨s, parser, request⟩ := t
  cases request with
  | query o typeName =>
    have hwhole : o.top.isWhole = true := htop
    rw [answer_query, Assembler.query_result_of_isWhole hwhole, map_eq_error,
      mapError_eq_error] at h
    obtain ⟨e', htext, rfl⟩ := h
    rcases Assembler.queryText_error htext with rfl | ⟨err, rfl⟩
    · exact .inl rfl
    · exact .inr ⟨err, rfl⟩
  | clauses o c extra =>
    rw [answer_clauses, Assembler.clauses_result, mapError_eq_error] at h
    obtain ⟨e', htext, rfl⟩ := h
    obtain ⟨err, rfl⟩ :=
      Assembler.clauseText_error (Assembler.limitFits_of_isWhole htop c) (map_eq_error.1 htext)
    exact .inr ⟨err, rfl⟩
  | tryClauses o c extra =>
    have hwhole : o.top.isWhole = true := htop
    rw [answer_tryClauses,
      Assembler.tryClauses_result (Assembler.limitFits_of_isWhole hwhole c)] at h
    cases h

end Turn

namespace Session

/-- The turns of a run. -/
def turns (s : Session) : List (SqlParser × Request) → List Turn
  | [] => []
  | (parser, request) :: rest => ⟨s, parser, request⟩ :: turns (Turn.next ⟨s, parser, request⟩) rest

theorem serveAll_cons (s : Session) (parser : SqlParser) (request : Request)
    (rest : List (SqlParser × Request)) :
    s.serveAll ((parser, request) :: rest) = (Turn.next ⟨s, parser, request⟩).serveAll rest := rfl

/-- After a run, the page size is the limit of the last turn that set it, or what it was before. -/
theorem serveAll_feed (s : Session) (requests : List (SqlParser × Request)) :
    (∀ t ∈ s.turns requests, ∀ n, ¬ t.SetsPage n) ∧ (s.serveAll requests).feed = s.feed ∨
      ∃ before t after n, s.turns requests = before ++ t :: after ∧ t.SetsPage n ∧
        (∀ t' ∈ after, ∀ m, ¬ t'.SetsPage m) ∧
          (s.serveAll requests).feed.maxItemCount = some n := by
  induction requests generalizing s with
  | nil => exact .inl ⟨by simp [turns], rfl⟩
  | cons x rest ih =>
    obtain ⟨parser, request⟩ := x
    rw [turns, serveAll_cons]
    rcases ih (Turn.next ⟨s, parser, request⟩) with
      ⟨hnone, hfeed⟩ | ⟨before, t, after, n, hturns, ht, hafter, hfeed⟩
    · rcases Turn.next_cases ⟨s, parser, request⟩ with ⟨n, hpage, hnext⟩ | ⟨hpage, hnext⟩
      · refine .inr ⟨[], _, _, n, rfl, hpage, hnone, ?_⟩
        rw [hfeed, hnext]
        rfl
      · refine .inl ⟨?_, ?_⟩
        · intro t ht
          rcases List.mem_cons.1 ht with rfl | ht
          · exact hpage
          · exact hnone t ht
        · rw [hfeed, hnext]
    · exact .inr ⟨_ :: before, t, after, n, by rw [hturns, List.cons_append], ht, hafter, hfeed⟩

/-- After a run of any requests, the page size is the limit of the last typed query that was
answered with a text and had a positive limit, or what it was before if there was none.  A request
that fails leaves the feed as it was; with whole numbers as limits it never fails because the feed
refuses one, and at every turn the page size is absent or positive. -/
theorem serveAll_paging (s : Session) (requests : List (SqlParser × Request)) :
    ((∀ t ∈ s.turns requests, ∀ n, ¬ t.SetsPage n) ∧ (s.serveAll requests).feed = s.feed ∨
      ∃ before t after n, s.turns requests = before ++ t :: after ∧ t.SetsPage n ∧
        (∀ t' ∈ after, ∀ m, ¬ t'.SetsPage m) ∧ (s.serveAll requests).feed.maxItemCount = some n) ∧
    (∀ t ∈ s.turns requests, ∀ e, t.answer = .error e → t.next = t.session) ∧
    (∀ t ∈ s.turns requests, t.request.options.top.isWhole = true → ∀ e, t.answer = .error e →
      e = .query .noTypeName ∨ ∃ err, e = .query (.render err)) ∧
    (∀ t ∈ s.turns requests, ∀ n, t.next.feed.maxItemCount = some n → 0 < n) :=
  ⟨s.serveAll_feed requests, fun _ _ _ h => Turn.next_of_error h,
    fun _ _ htop _ h => Turn.failure_cases htop h, fun t _ => t.next.feed.positive⟩

-- a failing filter, a query, other requests, a limit that is none, and a type without a name
example : (Session.serveAll ⟨.plain, .ofSize 50 (by decide)⟩
    [(fun _ => .select, .query { filter := some (.binary .add .it .it), top := .int 10 } "Foo"),
      (fun _ => .select, .query { top := .int 20 } "Foo"),
      (fun _ => .select, .clauses { top := .int 30 } .everything none),
      (fun _ => .select, .query { top := .int (-3) } "Foo"),
      (fun _ => .select, .query { top := .int 40 } "")]).feed = .ofSize 20 (by decide) := rfl

end Session

end DocQuery
