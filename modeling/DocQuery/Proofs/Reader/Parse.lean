import DocQuery.Proofs.Reader.Phrase
import DocQuery.Proofs.Reader.Token
import Mathlib.Data.List.Forall2

/-!
# Reading a condition

`read s` is the phrase that a reader makes of the text `s`, token by token: an operator that has its
left operand waits until the next operator, or the end of the group, is known not to hold tighter.
So `OR` is loosest, then `AND`, then the comparisons, operators of one level are grouped to the
left, and a unary operator takes only what stands next to it.

* `ReadState.step`, `run`: what the reader does with a token and with a list of them.
* `Reads ts x`: wherever an operand may stand, the tokens `ts` are read as the phrase `x`.
* `Spells s x`: the same for a text.  One rule for each way in which texts are put together says how
  they are read.
-/

namespace DocQuery

/-- An operator that waits for its (right) operand. -/
inductive Pending where
  | unary (op : UnaryOp)
  | binary (left : Phrase) (op : BinaryOp)

namespace Pending

/-- How tightly the operator holds its operands. -/
def level : Pending → Nat
  | .unary _ => 4
  | .binary _ op => op.level

/-- The operator with its operand. -/
def apply : Pending → Phrase → Phrase
  | .unary op, x => .unary op x
  | .binary left op, x => .binary op left x

end Pending

/-- Give the operand to all waiting operators that hold at least as tightly as `k`. -/
def reduce (k : Nat) : List Pending → Phrase → List Pending × Phrase
  | [], x => ([], x)
  | p :: ps, x => if k ≤ p.level then reduce k ps (p.apply x) else (p :: ps, x)

/-- The phrase when no operator waits any longer. -/
def settled (ps : List Pending) (x : Phrase) : Phrase := (reduce 0 ps x).2

/-- What an open parenthesis belongs to: a group, a call with the arguments so far, a lambda before
its colon, or one behind it. -/
inductive Bracket where
  | group
  | call (name : String) (args : List Phrase)
  | lambdaHead (source : String) (kind : QuantifierKind)
  | lambdaBody (source : String) (kind : QuantifierKind) (var : String)

namespace Bracket

/-- A word before a parenthesis that ends in `/any` or `/all` starts a lambda, and any other word a
call. -/
def ofName (name : String) : Bracket :=
  match name.toList.reverse with
  | 'y' :: 'n' :: 'a' :: '/' :: source => .lambdaHead (String.ofList source.reverse) .any
  | 'l' :: 'l' :: 'a' :: '/' :: source => .lambdaHead (String.ofList source.reverse) .all
  | _ => .call name []

/-- The phrase that a closing parenthesis completes. -/
def close? (x : Phrase) : Bracket → Option Phrase
  | .group => some (.group x)
  | .call name args => some (.call name (args ++ [x]))
  | .lambdaHead _ _ => none
  | .lambdaBody source kind var => some (.lambda source kind var x)

end Bracket

/-- Where a reader stands: the waiting operators, the operand that has been read, if any, and the
open parentheses with the operators that wait before them. -/
structure ReadState where
  pending : List Pending := []
  operand : Option Phrase := none
  outer : List (Bracket × List Pending) := []

namespace ReadState

/-- Read one token. -/
def step : ReadState → Token → Option ReadState
  | ⟨ps, none, o⟩, .word text => some ⟨ps, some (.word text), o⟩
  | ⟨ps, none, o⟩, .unary op => some ⟨.unary op :: ps, none, o⟩
  | ⟨ps, some x, o⟩, .binary op =>
    some ⟨.binary (reduce op.level ps x).2 op :: (reduce op.level ps x).1, none, o⟩
  | ⟨ps, none, o⟩, .opening => some ⟨[], none, (.group, ps) :: o⟩
  | ⟨ps, none, o⟩, .calling name => some ⟨[], none, (.ofName name, ps) :: o⟩
  | ⟨ps, some x, (b, qs) :: o⟩, .closing => (b.close? (settled ps x)).map fun y => ⟨qs, some y, o⟩
  | ⟨[], none, (.call name [], qs) :: o⟩, .closing => some ⟨qs, some (.call name []), o⟩
  | ⟨ps, some x, (.call name args, qs) :: o⟩, .comma =>
    some ⟨[], none, (.call name (args ++ [settled ps x]), qs) :: o⟩
  | ⟨[], some (.word v), (.lambdaHead source kind, qs) :: o⟩, .colon =>
    some ⟨[], none, (.lambdaBody source kind v, qs) :: o⟩
  | _, _ => none

/-- Read tokens one after the other. -/
def run (s : ReadState) (ts : List Token) : Option ReadState := ts.foldlM step s

/-- The phrase that has been read when nothing is left open. -/
def result? : ReadState → Option Phrase
  | ⟨ps, some x, []⟩ => some (settled ps x)
  | _ => none

@[simp] theorem run_nil (s : ReadState) : s.run [] = some s := rfl

@[simp] theorem run_cons (s : ReadState) (t : Token) (ts : List Token) :
    s.run (t :: ts) = (s.step t).bind (·.run ts) := rfl

@[simp] theorem run_append (s : ReadState) (ts us : List Token) :
    s.run (ts ++ us) = (s.run ts).bind (·.run us) := by
  simp [run]

end ReadState

open ReadState

/-- The phrase that a list of tokens is read as. -/
def parse (ts : List Token) : Option Phrase := (run {} ts).bind result?

/-- The phrase that a text is read as. -/
def read (s : String) : Option Phrase := (scan s.toList).bind parse

/-! ## Waiting operators -/

/-- The waiting operators hold less tightly than `n`, and each of them tighter than those that wait
longer. -/
def Below (n : Nat) : List Pending → Prop
  | [] => True
  | p :: ps => p.level < n ∧ Below p.level ps

theorem Below.mono {m n : Nat} {ps : List Pending} (h : Below m ps) (hmn : m ≤ n) : Below n ps := by
  cases ps with
  | nil => trivial
  | cons p ps => exact ⟨Nat.lt_of_lt_of_le h.1 hmn, h.2⟩

theorem reduce_of_below {k : Nat} {ps : List Pending} (h : Below k ps) (x : Phrase) :
    reduce k ps x = (ps, x) := by
  cases ps with
  | nil => rfl
  | cons p ps => rw [reduce, if_neg (by have := h.1; omega)]

/-- The operator with its operand, which may be a chain that goes on to the right. -/
def Pending.attach : Pending → Phrase → Phrase
  | .unary op, x => .unary op x
  | .binary left op, x => Phrase.graft op left x

theorem Pending.attach_eq_apply {p : Pending} {x : Phrase} (h : p.level ≠ x.level) :
    p.attach x = p.apply x := by
  cases p with
  | unary op => rfl
  | binary left op => exact Phrase.graft_of_level_ne (Ne.symm h) left

/-- `reduce` for an operand that may be a chain: the operator before it takes only the left end of
the chain. -/
def reduceChain (k : Nat) : List Pending → Phrase → List Pending × Phrase
  | [], x => ([], x)
  | p :: ps, x => if k ≤ p.level then reduce k ps (p.attach x) else (p :: ps, x)

theorem reduceChain_eq_reduce {x : Phrase} {ps : List Pending} (k : Nat)
    (h : ∀ p ∈ ps.head?, p.level ≠ x.level) : reduceChain k ps x = reduce k ps x := by
  cases ps with
  | nil => rfl
  | cons p ps => rw [reduceChain, reduce, Pending.attach_eq_apply (h p rfl)]

/-- The next operator finds the operators that hold less tightly than it does, and as its left
operand the chain so far.  What it then forms with its right operand is what the whole chain
forms. -/
theorem reduceChain_graft {op : BinaryOp} {ps : List Pending} (h : Below (op.level + 1) ps)
    (l : Phrase) :
    ∃ qs y, reduceChain op.level ps l = (qs, y) ∧ Below op.level qs ∧
      ∀ k ≤ op.level, ∀ r, reduce k qs (Phrase.graft op y r) =
        reduceChain k ps (Phrase.graft op l r) := by
  cases ps with
  | nil => exact ⟨[], l, rfl, trivial, fun k _ r => rfl⟩
  | cons p ps =>
    obtain ⟨hp, hps⟩ := h
    by_cases he : p.level = op.level
    · -- the operator before belongs to the same chain, and so it has its operand now
      have hr : reduceChain op.level (p :: ps) l = (ps, p.attach l) := by
        rw [reduceChain, if_pos (by omega), reduce_of_below (he ▸ hps)]
      refine ⟨ps, p.attach l, hr, he ▸ hps, fun k hk r => ?_⟩
      rw [reduceChain, if_pos (by omega)]
      cases p with
      | unary op' =>
        have := op.level_le_three
        simp only [Pending.level] at he
        omega
      | binary left op' => rw [Pending.attach, Pending.attach, Phrase.graft_graft he]
    · have hlt : p.level < op.level := by omega
      have hr : reduceChain op.level (p :: ps) l = (p :: ps, l) := by
        rw [reduceChain, if_neg (by omega)]
      refine ⟨p :: ps, l, hr, ⟨hlt, hps⟩, fun k _ r => (reduceChain_eq_reduce k ?_).symm⟩
      intro q hq
      obtain rfl : p = q := by simpa using hq
      rw [Phrase.level_graft]
      exact he

/-! ## Tokens that are read as a phrase -/

/-- Wherever an operand may stand, the tokens are read as `x`, whatever comes next: the operators
before `x` that hold as tightly as the next one then have `x`, or its left end, as their operand. -/
def Reads (ts : List Token) (x : Phrase) : Prop :=
  ∀ ps o, Below (x.level + 1) ps →
    ∃ qs y, run ⟨ps, none, o⟩ ts = some ⟨qs, some y, o⟩ ∧
      ∀ k ≤ x.level, reduce k qs y = reduceChain k ps x

/-- The tokens are read as `x` at once, so that even a unary operator takes all of it. -/
def ReadsAtom (ts : List Token) (x : Phrase) : Prop :=
  3 < x.level ∧ ∀ ps o, run ⟨ps, none, o⟩ ts = some ⟨ps, some x, o⟩

theorem reduce_eq_reduceChain_of_atom {x : Phrase} (hx : 3 < x.level) (k : Nat)
    {ps : List Pending} : reduce k ps x = reduceChain k ps x := by
  cases ps with
  | nil => rfl
  | cons p ps =>
    cases p with
    | unary op => rfl
    | binary left op =>
      have hne : (Pending.binary left op).level ≠ x.level := by
        have := op.level_le_three
        simp only [Pending.level]
        omega
      rw [reduceChain, reduce, Pending.attach_eq_apply hne]

theorem ReadsAtom.reads {ts : List Token} {x : Phrase} (h : ReadsAtom ts x) : Reads ts x := by
  intro ps o _
  exact ⟨ps, x, h.2 ps o, fun k _ => reduce_eq_reduceChain_of_atom h.1 k⟩

/-- When nothing waits, closing or ending the phrase gives all of it. -/
theorem Reads.settled {ts : List Token} {x : Phrase} (h : Reads ts x)
    (o : List (Bracket × List Pending)) :
    ∃ qs y, run ⟨[], none, o⟩ ts = some ⟨qs, some y, o⟩ ∧ settled qs y = x := by
  obtain ⟨qs, y, hrun, hred⟩ := h [] o trivial
  exact ⟨qs, y, hrun, by rw [DocQuery.settled, hred 0 (Nat.zero_le _)]; rfl⟩

theorem readsAtom_word (text : String) : ReadsAtom [.word text] (.word text) :=
  ⟨by simp [Phrase.level], fun _ _ => rfl⟩

theorem reads_unary {ts : List Token} {x : Phrase} (op : UnaryOp) (h : ReadsAtom ts x) :
    Reads (.unary op :: ts) (.unary op x) := by
  intro ps o _
  refine ⟨.unary op :: ps, x, h.2 (.unary op :: ps) o, fun k hk => ?_⟩
  have hk' : k ≤ (Pending.unary op).level := hk
  rw [reduce, if_pos hk']
  exact reduce_eq_reduceChain_of_atom (show 3 < (Phrase.unary op x).level by simp [Phrase.level]) k

/-- An operator between two operands that hold at least as tightly as it does. -/
theorem reads_binary {ts us : List Token} {op : BinaryOp} {l r : Phrase} (hl : Reads ts l)
    (hr : Reads us r) (hopl : op.level ≤ l.level) (hopr : op.level ≤ r.level) :
    Reads (ts ++ .binary op :: us) (Phrase.graft op l r) := by
  intro ps o hps
  rw [Phrase.level_graft] at hps
  obtain ⟨qs₁, y₁, hrun₁, hred₁⟩ := hl ps o (hps.mono (by omega))
  obtain ⟨qs₂, y₂, hchain, hbelow, hgraft⟩ := reduceChain_graft hps l
  -- the state after the operator
  have hstep : step ⟨qs₁, some y₁, o⟩ (.binary op) = some ⟨.binary y₂ op :: qs₂, none, o⟩ := by
    simp only [step, hred₁ op.level hopl, hchain]
  obtain ⟨qs, y, hrun, hred⟩ :=
    hr (.binary y₂ op :: qs₂) o ⟨by simp only [Pending.level]; omega, hbelow⟩
  refine ⟨qs, y, ?_, fun k hk => ?_⟩
  · rw [run_append, hrun₁, Option.bind_some, run_cons, hstep, Option.bind_some, hrun]
  · rw [Phrase.level_graft] at hk
    have hk' : k ≤ (Pending.binary y₂ op).level := hk
    rw [hred k (by omega), reduceChain, if_pos hk', ← hgraft k hk r]
    rfl

theorem readsAtom_group {ts : List Token} {x : Phrase} (h : Reads ts x) :
    ReadsAtom (.opening :: (ts ++ [.closing])) (.group x) := by
  refine ⟨by simp [Phrase.level], fun ps o => ?_⟩
  obtain ⟨qs, y, hrun, hset⟩ := h.settled ((.group, ps) :: o)
  simp [step, hrun, hset, Bracket.close?]

/-- The tokens are read as the last arguments of a call, up to its end. -/
def ReadsArgs (ts : List Token) (xs : List Phrase) : Prop :=
  ∀ name args ps o, run ⟨[], none, (.call name args, ps) :: o⟩ (ts ++ [.closing]) =
    some ⟨ps, some (.call name (args ++ xs)), o⟩

theorem readsArgs_one {ts : List Token} {x : Phrase} (h : Reads ts x) : ReadsArgs ts [x] := by
  intro name args ps o
  obtain ⟨qs, y, hrun, hset⟩ := h.settled ((.call name args, ps) :: o)
  simp [step, hrun, hset, Bracket.close?]

theorem readsArgs_cons {ts us : List Token} {x : Phrase} {xs : List Phrase} (h : Reads ts x)
    (hs : ReadsArgs us xs) : ReadsArgs (ts ++ .comma :: us) (x :: xs) := by
  intro name args ps o
  obtain ⟨qs, y, hrun, hset⟩ := h.settled ((.call name args, ps) :: o)
  have hrest := hs name (args ++ [x]) ps o
  rw [run_append, Option.bind_eq_some_iff] at hrest
  obtain ⟨s, hs₁, hs₂⟩ := hrest
  simpa [step, hrun, hset, hs₁] using hs₂

theorem readsAtom_call {ts : List Token} {xs : List Phrase} {name : String}
    (hname : Bracket.ofName name = .call name []) (h : ReadsArgs ts xs) :
    ReadsAtom (.calling name :: (ts ++ [.closing])) (.call name xs) := by
  refine ⟨by simp [Phrase.level], fun ps o => ?_⟩
  rw [run_cons, step, Option.bind_some, hname]
  exact h name [] ps o

theorem readsAtom_call_nil {name : String} (hname : Bracket.ofName name = .call name []) :
    ReadsAtom [.calling name, .closing] (.call name []) := by
  refine ⟨by simp [Phrase.level], fun ps o => ?_⟩
  simp [step, hname]

theorem readsAtom_lambda {ts : List Token} {x : Phrase} {name source : String}
    {kind : QuantifierKind} (v : String) (hname : Bracket.ofName name = .lambdaHead source kind)
    (h : Reads ts x) :
    ReadsAtom (.calling name :: .word v :: .colon :: (ts ++ [.closing]))
      (.lambda source kind v x) := by
  refine ⟨by simp [Phrase.level], fun ps o => ?_⟩
  obtain ⟨qs, y, hrun, hset⟩ := h.settled ((.lambdaBody source kind v, ps) :: o)
  simp [step, hname, hrun, hset, Bracket.close?]

/-! ## Texts that are read as a phrase -/

theorem ofName_of_no_slash {name : String} (h : '/' ∉ name.toList) :
    Bracket.ofName name = .call name [] := by
  have hmem : ∀ c, c ∈ name.toList.reverse → c ≠ '/' := by
    rintro c hc rfl
    exact h (List.mem_reverse.1 hc)
  unfold Bracket.ofName
  split
  · rename_i source heq
    exact absurd rfl (hmem '/' (by simp [heq]))
  · rename_i source heq
    exact absurd rfl (hmem '/' (by simp [heq]))
  · rfl

theorem ofName_any (source : String) :
    Bracket.ofName (source ++ "/any") = .lambdaHead source .any := by
  simp [Bracket.ofName]

theorem ofName_all (source : String) :
    Bracket.ofName (source ++ "/all") = .lambdaHead source .all := by
  simp [Bracket.ofName]

/-- Wherever an operand may stand, the text is read as `x`. -/
def Spells (s : String) (x : Phrase) : Prop := ∃ ts, Lexes s.toList ts ∧ Reads ts x

/-- The text is read as `x`, even behind a unary operator. -/
def SpellsAtom (s : String) (x : Phrase) : Prop := ∃ ts, Lexes s.toList ts ∧ ReadsAtom ts x

theorem SpellsAtom.spells {s : String} {x : Phrase} (h : SpellsAtom s x) : Spells s x := by
  obtain ⟨ts, hlex, hread⟩ := h
  exact ⟨ts, hlex, hread.reads⟩

/-- Such a text is read as `x` when it stands alone. -/
theorem Spells.read_eq {s : String} {x : Phrase} (h : Spells s x) : read s = some x := by
  obtain ⟨ts, hlex, hread⟩ := h
  have hscan : scan s.toList = some ts := by
    have hend := hlex [] trivial
    simpa [scan, scanFrom, finished] using hend
  obtain ⟨qs, y, hrun, hset⟩ := hread.settled []
  rw [read, hscan, Option.bind_some, parse, hrun, Option.bind_some, result?, hset]

theorem Spells.ne_empty {s : String} {x : Phrase} (h : Spells s x) : s ≠ "" := by
  rintro rfl
  have hread := h.read_eq
  simp [read, scan, scanFrom, finished, parse, result?] at hread

theorem spellsAtom_word {s : String} (h : IsLeafWord s) : SpellsAtom s (.word s) :=
  ⟨[.word s], lexes_leafWord h, readsAtom_word s⟩

theorem lexes_symbol {op : BinaryOp} {symbol : String} (h : op.symbol? = some symbol) :
    Lexes symbol.toList [.binary op] := by
  have hword : isOneWord false symbol.toList = true ∧ symbol ≠ "" := by
    cases op <;> simp only [BinaryOp.symbol?, Option.some.injEq, reduceCtorEq] at h <;>
      subst h <;> decide
  have hfin : finished symbol.toList = [.binary op] := by
    simp [finished, hword.2, Token.ofWord, BinaryOp.ofSymbol?_of_symbol? h]
  exact hfin ▸ lexes_oneWord hword.1

theorem spells_binary {a b symbol : String} {op : BinaryOp} {l r : Phrase}
    (hop : op.symbol? = some symbol) (hl : Spells a l) (hr : Spells b r) (hopl : op.level ≤ l.level)
    (hopr : op.level ≤ r.level) :
    Spells (a ++ " " ++ symbol ++ " " ++ b) (Phrase.graft op l r) := by
  obtain ⟨ts, hlexl, hreadl⟩ := hl
  obtain ⟨us, hlexr, hreadr⟩ := hr
  have hlex := lexes_separated (c := ' ') (by decide) (by decide) hlexl
    (lexes_separated (c := ' ') (by decide) (by decide) (lexes_symbol hop) hlexr)
  refine ⟨ts ++ .binary op :: us, ?_, reads_binary hreadl hreadr hopl hopr⟩
  simpa [cutAt, finished] using hlex

theorem spellsAtom_parens {s : String} {x : Phrase} (h : Spells s x) :
    SpellsAtom (parens s) (.group x) := by
  obtain ⟨ts, hlex, hread⟩ := h
  refine ⟨.opening :: (ts ++ [.closing]), ?_, readsAtom_group hread⟩
  simpa [parens, opened, finished] using lexes_enclosed (w := []) rfl hlex

section Unary

variable {token s : String} {op : UnaryOp} {x : Phrase}

/-- The words that stand before an operand. -/
theorem unaryWord_cases (h : UnaryOp.ofSymbol? token = some op) :
    isOneWord false token.toList = true ∧ finished token.toList = [.unary op] := by
  unfold UnaryOp.ofSymbol? at h
  split at h <;> simp only [Option.some.injEq, reduceCtorEq] at h <;> subst h <;> decide

/-- A unary operator and its operand with a space between them. -/
theorem spells_unary (hop : UnaryOp.ofSymbol? token = some op) (h : SpellsAtom s x) :
    Spells (token ++ " " ++ s) (.unary op x) := by
  obtain ⟨ts, hlex, hread⟩ := h
  obtain ⟨hword, hfin⟩ := unaryWord_cases hop
  have hall := lexes_separated (c := ' ') (by decide) (by decide) (lexes_oneWord hword) hlex
  refine ⟨.unary op :: ts, ?_, reads_unary op hread⟩
  rw [hfin] at hall
  simpa [cutAt, finished] using hall

/-- A unary operator directly before a group. -/
theorem spells_unary_parens (hop : UnaryOp.ofSymbol? token = some op) (h : Spells s x) :
    Spells (token ++ parens s) (.unary op (.group x)) := by
  obtain ⟨ts, hlex, hread⟩ := h
  obtain ⟨hword, hfin⟩ := unaryWord_cases hop
  have hall := lexes_enclosed hword hlex
  refine ⟨.unary op :: .opening :: (ts ++ [.closing]), ?_, reads_unary op (readsAtom_group hread)⟩
  simpa [parens, opened, hfin] using hall

end Unary

/-! ### Calls and lambdas -/

theorem IsNameWord.oneWord {s : String} (h : IsNameWord s) : isOneWord false s.toList = true :=
  isOneWord_of_unquoted h.no_separator h.no_quote

theorem IsNameWord.finished_eq {s : String} (h : IsNameWord s) : finished s.toList = [.word s] :=
  finished_word h.ne_empty h.not_operator

/-- Arguments with commas between them. -/
theorem lexes_args {s : String} {x : Phrase} {texts : List String} {xs : List Phrase}
    (h : Spells s x) (hs : List.Forall₂ Spells texts xs) :
    ∃ ts, Lexes (",".intercalate (s :: texts)).toList ts ∧ ReadsArgs ts (x :: xs) := by
  induction hs generalizing s x with
  | nil =>
    obtain ⟨ts, hlex, hread⟩ := h
    exact ⟨ts, by simpa using hlex, readsArgs_one hread⟩
  | cons ht _ ih =>
    obtain ⟨ts, hlex, hread⟩ := h
    obtain ⟨us, hlexs, hreads⟩ := ih ht
    have hall := lexes_separated (c := ',') (by decide) (by decide) hlex hlexs
    refine ⟨ts ++ .comma :: us, ?_, readsArgs_cons hread hreads⟩
    rw [String.intercalate_cons_cons]
    simpa [cutAt, finished] using hall

theorem spellsAtom_call {name : String} {texts : List String} {xs : List Phrase}
    (hname : IsNameWord name) (h : List.Forall₂ Spells texts xs) :
    SpellsAtom (name ++ "(" ++ ",".intercalate texts ++ ")") (.call name xs) := by
  have hopen : opened name.toList = [.calling name] := by simp [opened, hname.finished_eq]
  cases h with
  | nil =>
    have hall := lexes_enclosed hname.oneWord lexes_nil
    refine ⟨[.calling name, .closing], ?_, readsAtom_call_nil (ofName_of_no_slash hname.no_slash)⟩
    simpa [hopen] using hall
  | cons hs hss =>
    obtain ⟨ts, hlex, hread⟩ := lexes_args hs hss
    have hall := lexes_enclosed hname.oneWord hlex
    refine ⟨.calling name :: (ts ++ [.closing]), ?_,
      readsAtom_call (ofName_of_no_slash hname.no_slash) hread⟩
    simpa [hopen] using hall

theorem spellsAtom_lambda {source v b : String} {kind : QuantifierKind} {x : Phrase}
    (hsource : IsLeafWord source) (hkind : kind = .any ∨ kind = .all) (hv : IsNameWord v)
    (h : Spells b x) :
    SpellsAtom (source ++ "/" ++ kind.name ++ "(" ++ v ++ ":" ++ b ++ ")")
      (.lambda source kind v x) := by
  obtain ⟨ts, hlex, hread⟩ := h
  have hname : Bracket.ofName (source ++ "/" ++ kind.name) = .lambdaHead source kind := by
    rcases hkind with rfl | rfl
    · simpa [QuantifierKind.name, String.append_assoc] using ofName_any source
    · simpa [QuantifierKind.name, String.append_assoc] using ofName_all source
  have hword : isOneWord false (source ++ "/" ++ kind.name).toList = true := by
    have htail : isOneWord false ("/" ++ kind.name).toList = true := by
      rcases hkind with rfl | rfl <;> decide
    simpa [String.append_assoc] using isOneWord_append hsource.oneWord htail
  have hopen : opened (source ++ "/" ++ kind.name).toList =
      [.calling (source ++ "/" ++ kind.name)] := by
    have hop : isOperatorWord (source ++ "/" ++ kind.name) = false :=
      not_operator_of_mem (c := '/') (by simp) (by simp)
    rw [opened, finished_word (by simp [hsource.ne_empty]) hop]
  have hbody := lexes_separated (c := ':') (by decide) (by decide) (lexes_oneWord hv.oneWord) hlex
  have hall := lexes_enclosed hword hbody
  refine ⟨_, ?_, readsAtom_lambda v hname hread⟩
  rw [hopen, hv.finished_eq] at hall
  simpa [cutAt, finished] using hall

end DocQuery
