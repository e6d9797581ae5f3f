import DocQuery.Expr.Operator

/-!
# Phrases

A `Phrase` is a condition as a reader understands it: words, groups in parentheses, operators with
their operands, calls and lambdas.

* `BinaryOp.level`, `Phrase.level`: how tightly an operator, or a whole phrase, holds together.
* `graft op l r`: the phrase that `l`, `op` and `r` form when they are read one after the other.  If
  `r` is a chain of operators of the same level, `l` goes to its left end.
* `Phrase.leftAssoc`: every chain of operators of one level grouped to the left.
* `Phrase.bare`: the phrase without its groups; `Phrase.tight`: between operators, no group could be
  left out.
* `Phrase.conjuncts`: the members of the outermost conjunction.
-/

namespace DocQuery

/-- How tightly an operator holds its operands: a disjunction loosest, then a conjunction, then the
comparisons. -/
def BinaryOp.level : BinaryOp → Nat
  | .or => 1
  | .and => 2
  | _ => 3

theorem BinaryOp.one_le_level (op : BinaryOp) : 1 ≤ op.level := by
  cases op <;> simp [level]

theorem BinaryOp.level_le_three (op : BinaryOp) : op.level ≤ 3 := by
  cases op <;> simp [level]

/-- A condition as it is read. -/
inductive Phrase where
  | word (text : String)
  | group (inner : Phrase)
  | unary (op : UnaryOp) (operand : Phrase)
  | binary (op : BinaryOp) (left right : Phrase)
  | call (name : String) (args : List Phrase)
  | lambda (source : String) (kind : QuantifierKind) (var : String) (body : Phrase)
  deriving Repr, Inhabited

namespace Phrase

/-- Induction over phrases, with a hypothesis for every argument of a call. -/
@[elab_as_elim, induction_eliminator]
theorem induct {motive : Phrase → Prop}
    (word : ∀ text, motive (.word text))
    (group : ∀ inner, motive inner → motive (.group inner))
    (unary : ∀ op operand, motive operand → motive (.unary op operand))
    (binary : ∀ op left right, motive left → motive right → motive (.binary op left right))
    (call : ∀ name args, (∀ a ∈ args, motive a) → motive (.call name args))
    (lambda : ∀ source kind var body, motive body → motive (.lambda source kind var body))
    (x : Phrase) : motive x :=
  @Phrase.rec motive (fun xs => ∀ a ∈ xs, motive a) word group unary binary call lambda
    (fun _ h => absurd h (by simp))
    (fun _ _ h hs _ ha => (List.mem_cons.1 ha).elim (fun e => e ▸ h) (hs _)) x

/-- How tightly a phrase holds together. -/
def level : Phrase → Nat
  | .binary op _ _ => op.level
  | .unary _ _ => 4
  | _ => 5

theorem one_le_level (x : Phrase) : 1 ≤ x.level := by
  cases x with
  | binary op l r => exact op.one_le_level
  | _ => simp [level]

theorem level_le_five (x : Phrase) : x.level ≤ 5 := by
  cases x with
  | binary op l r => have := op.level_le_three; simp only [level]; omega
  | _ => simp [level]

/-! ## Chains of operators -/

/-- `l`, `op` and `r` read one after the other. -/
def graft (op : BinaryOp) (l : Phrase) : Phrase → Phrase
  | .binary op' a b =>
    if op'.level = op.level then .binary op' (graft op l a) b else .binary op l (.binary op' a b)
  | r => .binary op l r

theorem graft_binary {op op' : BinaryOp} (h : op'.level = op.level) (l a b : Phrase) :
    graft op l (.binary op' a b) = .binary op' (graft op l a) b := by
  rw [graft, if_pos h]

theorem graft_binary_of_ne {op op' : BinaryOp} (h : op'.level ≠ op.level) (l a b : Phrase) :
    graft op l (.binary op' a b) = .binary op l (.binary op' a b) := by
  rw [graft, if_neg h]

theorem graft_of_level_ne {op : BinaryOp} {r : Phrase} (h : r.level ≠ op.level) (l : Phrase) :
    graft op l r = .binary op l r := by
  cases r with
  | binary op' a b => exact graft_binary_of_ne h l a b
  | _ => rfl

@[simp] theorem level_graft (op : BinaryOp) (l r : Phrase) : (graft op l r).level = op.level := by
  by_cases h : r.level = op.level
  · cases r with
    | binary op' a b => rw [graft_binary h]; exact h
    | _ => rfl
  · rw [graft_of_level_ne h]; rfl

/-- Reading a chain in two steps is reading it in one. -/
theorem graft_graft {op op' : BinaryOp} (h : op.level = op'.level) (l m r : Phrase) :
    graft op' (graft op l m) r = graft op l (graft op' m r) := by
  induction r with
  | binary o a b iha _ =>
    by_cases ho : o.level = op'.level
    · rw [graft_binary ho, graft_binary ho, graft_binary (ho.trans h.symm), iha]
    · rw [graft_binary_of_ne ho, graft_binary_of_ne ho, graft_binary h.symm]
  | _ => simp only [graft, if_pos h.symm]

/-! ## Grouping to the left, groups left out -/

mutual

/-- Every chain of operators of one level is grouped to the left. -/
def leftAssoc : Phrase → Phrase
  | .word text => .word text
  | .group inner => .group inner.leftAssoc
  | .unary op operand => .unary op operand.leftAssoc
  | .binary op left right => graft op left.leftAssoc right.leftAssoc
  | .call name args => .call name (leftAssocAll args)
  | .lambda source kind var body => .lambda source kind var body.leftAssoc

/-- The phrases with every chain grouped to the left. -/
def leftAssocAll : List Phrase → List Phrase
  | [] => []
  | x :: xs => x.leftAssoc :: leftAssocAll xs

end

mutual

/-- The phrase without its groups. -/
def bare : Phrase → Phrase
  | .word text => .word text
  | .group inner => inner.bare
  | .unary op operand => .unary op operand.bare
  | .binary op left right => .binary op left.bare right.bare
  | .call name args => .call name (bareAll args)
  | .lambda source kind var body => .lambda source kind var body.bare

/-- The phrases without their groups. -/
def bareAll : List Phrase → List Phrase
  | [] => []
  | x :: xs => x.bare :: bareAll xs

end

mutual

/-- Is every group needed where it stands?  `outer` tells how tightly the surroundings hold: not at
all at the outset, in an argument and in the body of a lambda, and tighter than anything behind a
unary operator, where a group may always stand.  Elsewhere a group is needed if its content is
looser than the surroundings. -/
def tight (outer : Nat) : Phrase → Bool
  | .word _ => true
  | .group inner => decide (inner.level < outer) && inner.tight 0
  | .unary _ operand => operand.tight 6
  | .binary op left right => left.tight op.level && right.tight op.level
  | .call _ args => tightAll args
  | .lambda _ _ _ body => body.tight 0

/-- Is every group of the phrases needed? -/
def tightAll : List Phrase → Bool
  | [] => true
  | x :: xs => x.tight 0 && tightAll xs

end

theorem tight_mono {m n : Nat} (h : m ≤ n) {x : Phrase} (hx : x.tight m = true) :
    x.tight n = true := by
  cases x with
  | group inner =>
    simp only [tight, Bool.and_eq_true, decide_eq_true_eq] at hx ⊢
    exact ⟨by omega, hx.2⟩
  | _ => exact hx

theorem tight_graft {op : BinaryOp} {l r : Phrase} (n : Nat) (hl : l.tight op.level = true)
    (hr : r.tight op.level = true) : (graft op l r).tight n = true := by
  induction r generalizing n with
  | binary o a b iha _ =>
    by_cases ho : o.level = op.level
    · rw [tight, Bool.and_eq_true, ho] at hr
      rw [graft_binary ho, tight, Bool.and_eq_true, ho]
      exact ⟨iha op.level hr.1, hr.2⟩
    · rw [graft_binary_of_ne ho, tight, hl, hr]; rfl
  | _ =>
    have hlevel := op.level_le_three
    rw [graft_of_level_ne (by simp only [level]; omega), tight, hl, hr]
    rfl

/-- A phrase that needs all its groups is no group itself, so leaving groups out does not change how
tightly it holds. -/
theorem level_bare {x : Phrase} (hx : x.tight 0 = true) : x.bare.level = x.level := by
  cases x with
  | group inner => simp [tight] at hx
  | _ => rfl

theorem bare_graft {op : BinaryOp} {r : Phrase} (l : Phrase) (hr : r.tight op.level = true) :
    (graft op l r).bare = graft op l.bare r.bare := by
  induction r with
  | group inner =>
    simp only [tight, Bool.and_eq_true, decide_eq_true_eq] at hr
    have hlevel : inner.bare.level ≠ op.level := by rw [level_bare hr.2]; omega
    rw [bare, graft_of_level_ne hlevel]
    rfl
  | binary o a b iha _ =>
    rw [tight, Bool.and_eq_true] at hr
    by_cases ho : o.level = op.level
    · rw [graft_binary ho, bare, bare, graft_binary ho, iha (ho ▸ hr.1)]
    · rw [graft_binary_of_ne ho, bare, bare, graft_binary_of_ne ho]
  | _ => rfl

/-! ## Conjunctions -/

/-- The members of the outermost conjunction, in order. -/
def conjuncts : Phrase → List Phrase
  | .binary .and left right => left.conjuncts ++ right.conjuncts
  | x => [x]

theorem conjuncts_of_level_ne {x : Phrase} (h : x.level ≠ BinaryOp.and.level) :
    x.conjuncts = [x] := by
  cases x with
  | binary op l r =>
    cases op with
    | and => exact absurd rfl h
    | _ => rfl
  | _ => rfl

theorem conjuncts_ne_nil (x : Phrase) : x.conjuncts ≠ [] := by
  induction x with
  | binary op l r ihl _ =>
    cases op with
    | and => simp [conjuncts, ihl]
    | _ => simp [conjuncts]
  | _ => simp [conjuncts]

theorem op_eq_and_of_level {op : BinaryOp} (h : op.level = BinaryOp.and.level) : op = .and := by
  cases op with
  | and => rfl
  | _ => simp [BinaryOp.level] at h

@[simp] theorem conjuncts_graft_and (l r : Phrase) :
    (graft .and l r).conjuncts = l.conjuncts ++ r.conjuncts := by
  induction r with
  | binary op a b iha _ =>
    by_cases h : op.level = BinaryOp.and.level
    · obtain rfl := op_eq_and_of_level h
      rw [graft_binary rfl, conjuncts, conjuncts, iha, List.append_assoc]
    · rw [graft_binary_of_ne h, conjuncts]
  | _ => rfl

end Phrase

end DocQuery
