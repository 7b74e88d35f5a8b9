/- # Negation normal form — negations at the leaves, connectives of any width

In this form negations stand at features alone.  On the way there nested
conjunctions become one conjunction of all their operands, and
nested disjunctions one disjunction.  Both polarities are treated at once:
`nnf true e` is the form of the negation of `e`, by the laws of De Morgan.
-/
import ProductLine.Expr.Basic

namespace ProductLine

/-- Literals under conjunctions and disjunctions of any number of items. -/
inductive Nnf where
  | literal (l : Literal)
  | all (items : List Nnf)
  | any (items : List Nnf)

namespace Nnf

mutual

def eval (σ : Assignment) : Nnf → Bool
  | literal l => l.eval σ
  | all items => evalAll σ items
  | any items => evalAny σ items

def evalAll (σ : Assignment) : List Nnf → Bool
  | [] => true
  | n :: ns => n.eval σ && evalAll σ ns

/-- Some item is true. -/
def evalAny (σ : Assignment) : List Nnf → Bool
  | [] => false
  | n :: ns => n.eval σ || evalAny σ ns

end

/-- The items of a conjunction; any other form is an item by itself. -/
def conjuncts : Nnf → List Nnf
  | all items => items
  | n => [n]

/-- The items of a disjunction; any other form is an item by itself. -/
def disjuncts : Nnf → List Nnf
  | any items => items
  | n => [n]

/-- The conjunction of two forms, in one node. -/
def conj (a b : Nnf) : Nnf :=
  all (a.conjuncts ++ b.conjuncts)

/-- The disjunction of two forms, in one node. -/
def disj (a b : Nnf) : Nnf :=
  any (a.disjuncts ++ b.disjuncts)

theorem evalAll_append (σ : Assignment) (ms ns : List Nnf) :
    evalAll σ (ms ++ ns) = (evalAll σ ms && evalAll σ ns) := by
  induction ms with
  | nil => rfl
  | cons m ms ih => rw [List.cons_append, evalAll, ih, evalAll, Bool.and_assoc]

theorem evalAny_append (σ : Assignment) (ms ns : List Nnf) :
    evalAny σ (ms ++ ns) = (evalAny σ ms || evalAny σ ns) := by
  induction ms with
  | nil => rfl
  | cons m ms ih => rw [List.cons_append, evalAny, ih, evalAny, Bool.or_assoc]

theorem evalAll_conjuncts (σ : Assignment) (n : Nnf) : evalAll σ n.conjuncts = n.eval σ := by
  cases n <;> simp only [conjuncts, evalAll, eval, Bool.and_true]

theorem evalAny_disjuncts (σ : Assignment) (n : Nnf) : evalAny σ n.disjuncts = n.eval σ := by
  cases n <;> simp only [disjuncts, evalAny, eval, Bool.or_false]

@[simp] theorem eval_conj (σ : Assignment) (a b : Nnf) :
    (a.conj b).eval σ = (a.eval σ && b.eval σ) := by
  rw [conj, eval, evalAll_append, evalAll_conjuncts, evalAll_conjuncts]

@[simp] theorem eval_disj (σ : Assignment) (a b : Nnf) :
    (a.disj b).eval σ = (a.eval σ || b.eval σ) := by
  rw [disj, eval, evalAny_append, evalAny_disjuncts, evalAny_disjuncts]

end Nnf

/-- The negation normal form of `e`, or of its negation if `negated`. -/
def Expr.nnf (negated : Bool) : Expr → Nnf
  | .var f => .literal ⟨f, negated⟩
  | .not a => a.nnf (!negated)
  | .and a b =>
    if negated then (a.nnf negated).disj (b.nnf negated)
    else (a.nnf negated).conj (b.nnf negated)
  | .or a b =>
    if negated then (a.nnf negated).conj (b.nnf negated)
    else (a.nnf negated).disj (b.nnf negated)

/-- The form of either polarity has the value of the expression, inverted if negated. -/
theorem Expr.eval_nnf (σ : Assignment) (negated : Bool) (e : Expr) :
    (e.nnf negated).eval σ = (e.eval σ != negated) := by
  induction e generalizing negated with
  | var f => rfl
  | not a ih => rw [nnf, ih, Expr.eval]; cases a.eval σ <;> cases negated <;> rfl
  | and a b iha ihb =>
    cases negated
    · rw [nnf, if_neg Bool.false_ne_true, Nnf.eval_conj, iha, ihb, Expr.eval]
      cases a.eval σ <;> cases b.eval σ <;> rfl
    · rw [nnf, if_pos rfl, Nnf.eval_disj, iha, ihb, Expr.eval]
      cases a.eval σ <;> cases b.eval σ <;> rfl
  | or a b iha ihb =>
    cases negated
    · rw [nnf, if_neg Bool.false_ne_true, Nnf.eval_disj, iha, ihb, Expr.eval]
      cases a.eval σ <;> cases b.eval σ <;> rfl
    · rw [nnf, if_pos rfl, Nnf.eval_conj, iha, ihb, Expr.eval]
      cases a.eval σ <;> cases b.eval σ <;> rfl

end ProductLine
