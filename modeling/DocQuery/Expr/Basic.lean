import DocQuery.Expr.Operator
import DocQuery.Value

/-!
# Expressions

`Expr` is a parsed OData expression: the tree behind a filter, a search, a sort key or a parameter
value.

* `Expr.missing` stands where no expression was given; `Expr.present?` turns it into `none`.
* `Expr.unwrap` strips the implicit conversions around an expression.
* `Expr.same` compares expressions, with constants compared by `Value.same`.
* `Expr.induct` is induction with one hypothesis per part, arguments of calls included.
-/

namespace DocQuery

/-- A literal.  `text` is its written form; a null `value` overrides it. -/
structure Constant where
  text : String
  value : Value
  typeName : Option String := none
  isEnum : Bool := false
  deriving Repr, Inhabited

/-- How a name is reached from its source: as a declared property, as a dynamic property of an open
type, as a navigation property (with the entity set it leads to) or as a type cast. -/
inductive Access where
  | declared (collection : Bool)
  | dynamic (collection : Bool)
  | navigation (target : Option String) (collection : Bool)
  | cast (kind : ResultKind)
  deriving DecidableEq, Repr

/-- A query expression.

* `constant`: a literal;
* `convert`: an implicit conversion, rendered as its source;
* `binary`, `unary`: operators;
* `access`: a name reached from a source, which may be missing;
* `rangeVar`: a variable of a quantifier, or the queried document `$it`;
* `quantifier`: `any` or `all` over a collection, with the variable that the body speaks of;
* `call`: a function call, on a receiver if the source is not missing;
* `namedArg`: an argument given by name;
* `paramAlias`: a parameter such as `@p1`;
* `searchTerm`: a word of a search;
* `foreign`: a value that is no expression. -/
inductive Expr where
  | constant (c : Constant)
  | convert (source : Expr) (typeName : Option String)
  | binary (op : BinaryOp) (left right : Expr)
  | unary (op : UnaryOp) (operand : Expr)
  | access (how : Access) (name : String) (source : Expr)
  | rangeVar (name : String) (entity : Bool)
  | quantifier (kind : QuantifierKind) (source body : Expr) (var : Option String)
  | call (name : String) (args : List Expr) (source : Expr) (kind : ResultKind)
  | namedArg (name : String) (value : Expr)
  | paramAlias (name : String)
  | searchTerm (text : String)
  | foreign (value : Value)
  deriving Repr, Inhabited

namespace Expr

/-- No expression. -/
@[match_pattern] abbrev missing : Expr := .foreign .null

def isMissing : Expr → Bool
  | .missing => true
  | _ => false

theorem eq_missing_of_isMissing {e : Expr} (h : e.isMissing = true) : e = .missing := by
  unfold isMissing at h
  split at h
  · rfl
  · cases h

/-- The expression, if there is one. -/
def present? (e : Expr) : Option Expr := if e.isMissing then none else some e

def isConstant : Expr → Bool
  | .constant _ => true
  | _ => false

/-- Constants and search terms are written without parentheses after a unary operator. -/
def isAtomic : Expr → Bool
  | .constant _ | .searchTerm _ => true
  | _ => false

/-- The expression under its implicit conversions. -/
def unwrap : Expr → Expr
  | .convert source _ => source.unwrap
  | e => e

/-- Induction over expressions, with a hypothesis for every argument of a call. -/
@[elab_as_elim, induction_eliminator]
theorem induct {motive : Expr → Prop}
    (constant : ∀ c, motive (.constant c))
    (convert : ∀ source typeName, motive source → motive (.convert source typeName))
    (binary : ∀ op left right, motive left → motive right → motive (.binary op left right))
    (unary : ∀ op operand, motive operand → motive (.unary op operand))
    (access : ∀ how name source, motive source → motive (.access how name source))
    (rangeVar : ∀ name entity, motive (.rangeVar name entity))
    (quantifier : ∀ kind source body var, motive source → motive body →
      motive (.quantifier kind source body var))
    (call : ∀ name args source kind, (∀ a ∈ args, motive a) → motive source →
      motive (.call name args source kind))
    (namedArg : ∀ name value, motive value → motive (.namedArg name value))
    (paramAlias : ∀ name, motive (.paramAlias name))
    (searchTerm : ∀ text, motive (.searchTerm text))
    (foreign : ∀ value, motive (.foreign value))
    (e : Expr) : motive e :=
  @Expr.rec motive (fun es => ∀ a ∈ es, motive a) constant convert binary unary access rangeVar
    quantifier call namedArg paramAlias searchTerm foreign (fun _ h => absurd h (by simp))
    (fun _ _ h hs _ ha => (List.mem_cons.1 ha).elim (fun e => e ▸ h) (hs _)) e

/-! ## Equality -/

mutual

/-- Are the expressions equal? -/
def same : Expr → Expr → Bool
  | .constant a, .constant b =>
    a.text == b.text && a.value.same b.value && a.typeName == b.typeName && a.isEnum == b.isEnum
  | .convert s t, .convert s' t' => s.same s' && t == t'
  | .binary op l r, .binary op' l' r' => op == op' && l.same l' && r.same r'
  | .unary op e, .unary op' e' => op == op' && e.same e'
  | .access how n s, .access how' n' s' => how == how' && n == n' && s.same s'
  | .rangeVar n e, .rangeVar n' e' => n == n' && e == e'
  | .quantifier k s b v, .quantifier k' s' b' v' => k == k' && s.same s' && b.same b' && v == v'
  | .call n args s k, .call n' args' s' k' => n == n' && sameAll args args' && s.same s' && k == k'
  | .namedArg n v, .namedArg n' v' => n == n' && v.same v'
  | .paramAlias n, .paramAlias n' => n == n'
  | .searchTerm t, .searchTerm t' => t == t'
  | .foreign v, .foreign v' => v.same v'
  | _, _ => false

/-- Are the lists of expressions equal, place by place? -/
def sameAll : List Expr → List Expr → Bool
  | [], [] => true
  | a :: as, b :: bs => a.same b && sameAll as bs
  | _, _ => false

end

mutual

/-- Does the expression hold a list or an object as a value? -/
def holdsCollection : Expr → Bool
  | .constant c => c.value.isCollection
  | .convert source _ => source.holdsCollection
  | .binary _ left right => left.holdsCollection || right.holdsCollection
  | .unary _ operand => operand.holdsCollection
  | .access _ _ source => source.holdsCollection
  | .quantifier _ source body _ => source.holdsCollection || body.holdsCollection
  | .call _ args source _ => anyHoldsCollection args || source.holdsCollection
  | .namedArg _ value => value.holdsCollection
  | .foreign value => value.isCollection
  | .rangeVar .. | .paramAlias _ | .searchTerm _ => false

/-- Does one of the expressions hold a list or an object as a value? -/
def anyHoldsCollection : List Expr → Bool
  | [] => false
  | e :: es => e.holdsCollection || anyHoldsCollection es

end

/-- The expressions without repetitions, each at its first place. -/
def distinct (es : List Expr) : List Expr :=
  es.foldl (fun seen e => if seen.any (·.same e) then seen else seen ++ [e]) []

/-- How many different expressions there are.  Expressions with a list or an object in them cannot
be counted. -/
def countDistinct? (es : List Expr) : Option Nat :=
  if anyHoldsCollection es then none else some (distinct es).length

end Expr

end DocQuery
