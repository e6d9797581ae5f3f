/-!
# Clause selection

`Clauses` says which clauses of a query are wanted.  `Clauses.ofBits` reads a selection from the
bits of a number and `Clauses.ofNames?` from the names of clauses.
-/

namespace DocQuery

/-- The wanted clauses. -/
structure Clauses where
  select : Bool := false
  filter : Bool := false
  orderBy : Bool := false
  top : Bool := false
  deriving DecidableEq, Repr, Inhabited

namespace Clauses

/-- All clauses. -/
def everything : Clauses := { select := true, filter := true, orderBy := true, top := true }

/-- The clauses of either selection. -/
def union (a b : Clauses) : Clauses :=
  { select := a.select || b.select, filter := a.filter || b.filter,
    orderBy := a.orderBy || b.orderBy, top := a.top || b.top }

/-- Is bit `k` of a number set?  Negative numbers are in two's complement. -/
def bit (n : Int) (k : Nat) : Bool := (n >>> k) % 2 == 1

/-- The selection in the bits 0, 4, 8 and 12 of a number. -/
def ofBits (n : Int) : Clauses :=
  { select := bit n 0, filter := bit n 4, orderBy := bit n 8, top := bit n 12 }

/-- The selection of one clause, or of all, by name. -/
def ofName? : String → Option Clauses
  | "SELECT_CLAUSE" => some { select := true }
  | "WHERE_CLAUSE" => some { filter := true }
  | "ORDERBY_CLAUSE" => some { orderBy := true }
  | "TOP_CLAUSE" => some { top := true }
  | "ALL" => some everything
  | _ => none

/-- The selection of the named clauses. -/
def ofNames? (names : List String) : Option Clauses := do
  let parts ← names.mapM ofName?
  return parts.foldl union {}

end Clauses

end DocQuery
