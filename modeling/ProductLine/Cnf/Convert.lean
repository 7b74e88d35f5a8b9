/- # Conversion — from an expression to its clauses

The conversion distributes disjunctions over conjunctions in the negation
normal form and simplifies after every step.  It can blow up exponentially,
and so it stops at two limits: a budget for the number of clauses, and a
deadline.

The clock is a sequence of readings: `clock k` says whether the `k`-th look
at it finds the deadline reached.  The conversion therefore carries the
number of looks it has taken.  The limits decide only whether there is an
answer, never which.
-/
import ProductLine.Cnf.Simplify
import ProductLine.Nnf

namespace ProductLine.Cnf

/-- Why a conversion stopped without an answer. -/
inductive Cutoff where
  | budget (maxClauses : Nat)
  | deadline
deriving DecidableEq

def Cutoff.message : Cutoff → String
  | budget n => "clause budget of " ++ toString n ++ " exceeded"
  | deadline => "deadline reached during CNF conversion"

/-- The readings of a clock: whether the deadline is reached at each look. -/
abbrev Clock := Nat → Bool

/-- The clock of a deadline that is never reached. -/
def Clock.ample : Clock := fun _ => false

/-- The clock of a deadline that has passed already. -/
def Clock.expired : Clock := fun _ => true

/-- The clause budget where none is asked for. -/
def defaultMaxClauses : Nat := 10000

structure Limits where
  maxClauses : Nat := defaultMaxClauses
  clock : Clock := Clock.ample

/-- A computation that counts its looks at the clock and may be cut off. -/
abbrev Timed := StateT Nat (Except Cutoff)

namespace Limits

def look (limits : Limits) : Timed Unit := fun looks =>
  if limits.clock looks then .error .deadline else .ok ((), looks + 1)

def lookTimes (limits : Limits) : Nat → Timed Unit
  | 0 => pure ()
  | n + 1 => do
    limits.look
    limits.lookTimes n

/-- The number of clauses has to be within the budget. -/
def checkSize (limits : Limits) (size : Nat) : Timed Unit := fun looks =>
  if size > limits.maxClauses then .error (.budget limits.maxClauses) else .ok ((), looks)

/-- Simplification with one look at the clock per clause that is no tautology. -/
def simplify (limits : Limits) (cs : List Clause) : Timed (List Clause) := do
  limits.lookTimes (withoutTautologies cs).length
  return Cnf.simplify cs

end Limits

/-- The unions of a clause of `left` and one of `right` that are no tautologies, in the order of
`left` and then of `right`. -/
def product (left right : List Clause) : List Clause :=
  left.flatMap fun c => withoutTautologies (right.map c.merge)

mutual

def clauses (limits : Limits) : Nnf → Timed (List Clause)
  | .literal l => do
    limits.look
    return [⟨[l]⟩]
  | .all items => do
    limits.look
    let cs ← gather limits [] items
    limits.simplify cs
  | .any items => do
    limits.look
    distribute limits [⟨[]⟩] items

/-- The clauses of all items, after those gathered so far. -/
def gather (limits : Limits) (sofar : List Clause) : List Nnf → Timed (List Clause)
  | [] => return sofar
  | n :: ns => do
    let cs ← clauses limits n
    let gathered := sofar ++ cs
    limits.checkSize gathered.length
    gather limits gathered ns

/-- The simplified product of the clauses so far and those of each item. -/
def distribute (limits : Limits) (sofar : List Clause) : List Nnf → Timed (List Clause)
  | [] => return sofar
  | n :: ns => do
    let cs ← clauses limits n
    limits.checkSize (sofar.length * cs.length)
    let simplified ← limits.simplify (product sofar cs)
    distribute limits simplified ns

end

/-- The clauses of an expression: a conjunction with the same value under every assignment.  There
are none exactly if the expression is always true. -/
def convert (limits : Limits) (e : Expr) : Except Cutoff (List Clause) :=
  let steps : Timed (List Clause) := do
    let cs ← clauses limits (e.nnf false)
    limits.simplify cs
  (steps 0).map Prod.fst

end ProductLine.Cnf
