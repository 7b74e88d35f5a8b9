/- # Simplification — dropping the clauses that say nothing new

Of a list of clauses those are kept that are no tautologies and that no other
clause of the list makes superfluous.  Order is kept.  Among clauses with the
same literals the first one stays.
-/
import ProductLine.Clause

namespace ProductLine.Cnf

/-- The clause is superfluous beside those `before` and `after` it: one of them subsumes it and is
shorter, or is as long and comes first. -/
def isDominated (c : Clause) (before after : List Clause) : Bool :=
  let size := c.size
  before.any (fun d => d.subsumes c && d.size ≤ size) ||
    after.any (fun d => d.subsumes c && d.size < size)

/-- Keeps the clauses of `after` that are not dominated in the list `before.reverse ++ after`. -/
def undominated (before : List Clause) : List Clause → List Clause
  | [] => []
  | c :: after =>
    if isDominated c before after then undominated (c :: before) after
    else c :: undominated (c :: before) after

def withoutTautologies (cs : List Clause) : List Clause :=
  cs.filter (!·.isTautology)

/-- The clauses that are neither tautologies nor superfluous, in their order. -/
def simplify (cs : List Clause) : List Clause :=
  undominated [] (withoutTautologies cs)

end ProductLine.Cnf
