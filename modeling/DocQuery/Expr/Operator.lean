/-!
# Operators and kinds

The words that an expression is labelled with.  Each type lists the words with a meaning of their
own; `other` keeps any further word as it was given.  `name` gives the word of a label and `ofName`
reads it.
-/

namespace DocQuery

/-- Binary operators: disjunction, conjunction, the six comparisons, arithmetic and the flag
test. -/
inductive BinaryOp where
  | or | and
  | eq | ne | gt | ge | lt | le
  | add | sub | mul | div | mod
  | has
  | other (name : String)
  deriving DecidableEq, Repr

namespace BinaryOp

def name : BinaryOp → String
  | .or => "or" | .and => "and"
  | .eq => "eq" | .ne => "ne" | .gt => "gt" | .ge => "ge" | .lt => "lt" | .le => "le"
  | .add => "add" | .sub => "sub" | .mul => "mul" | .div => "div" | .mod => "mod"
  | .has => "has"
  | .other n => n

def ofName : String → BinaryOp
  | "or" => .or | "and" => .and
  | "eq" => .eq | "ne" => .ne | "gt" => .gt | "ge" => .ge | "lt" => .lt | "le" => .le
  | "add" => .add | "sub" => .sub | "mul" => .mul | "div" => .div | "mod" => .mod
  | "has" => .has
  | n => .other n

end BinaryOp

/-- Unary operators. -/
inductive UnaryOp where
  | negate | not
  | other (name : String)
  deriving DecidableEq, Repr

namespace UnaryOp

def name : UnaryOp → String
  | .negate => "negate" | .not => "not"
  | .other n => n

def ofName : String → UnaryOp
  | "negate" => .negate | "not" => .not
  | n => .other n

end UnaryOp

/-- Does a quantifier ask for one member of the collection or for all of them? -/
inductive QuantifierKind where
  | any | all
  | other (name : String)
  deriving DecidableEq, Repr

namespace QuantifierKind

def name : QuantifierKind → String
  | .any => "any" | .all => "all"
  | .other n => n

def ofName : String → QuantifierKind
  | "any" => .any | "all" => .all
  | n => .other n

end QuantifierKind

/-- What a cast or a function call yields: one entity or value, or a collection of them. -/
inductive ResultKind where
  | singleValue | singleEntity | collection | collectionProperty | entityCollection
  | other (name : String)
  deriving DecidableEq, Repr

namespace ResultKind

def name : ResultKind → String
  | .singleValue => "single_value" | .singleEntity => "single_entity"
  | .collection => "collection" | .collectionProperty => "collection_property"
  | .entityCollection => "entity_collection"
  | .other n => n

def ofName : String → ResultKind
  | "single_value" => .singleValue | "single_entity" => .singleEntity
  | "collection" => .collection | "collection_property" => .collectionProperty
  | "entity_collection" => .entityCollection
  | n => .other n

end ResultKind

/-- The direction of a sort. -/
inductive Direction where
  | ascending | descending
  | other (name : String)
  deriving DecidableEq, Repr

namespace Direction

def name : Direction → String
  | .ascending => "asc" | .descending => "desc"
  | .other n => n

def ofName : String → Direction
  | "asc" => .ascending | "desc" => .descending
  | n => .other n

end Direction

end DocQuery
