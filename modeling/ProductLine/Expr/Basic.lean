/- # Expressions — Boolean conditions on features

The trees that constraints are made of, what they mean under an assignment,
and which features they mention.  Nothing here bounds the shape of a tree;
the bound belongs to the reader of texts (`ProductLine.Expr.Read`), which
measures it by `height`.
-/
import ProductLine.Literal

namespace ProductLine

/-- A Boolean expression over features. -/
inductive Expr where
  | var (feature : Feature)
  | not (body : Expr)
  | and (left right : Expr)
  | or (left right : Expr)
deriving DecidableEq

namespace Expr

def eval (σ : Assignment) : Expr → Bool
  | var f => σ f
  | not a => !a.eval σ
  | and a b => a.eval σ && b.eval σ
  | or a b => a.eval σ || b.eval σ

/-- The number of nodes on the longest way from the root to a variable. -/
def height : Expr → Nat
  | var _ => 1
  | not a => a.height + 1
  | and a b | or a b => max a.height b.height + 1

def size : Expr → Nat
  | var _ => 1
  | not a => a.size + 1
  | and a b | or a b => a.size + b.size + 1

/-- The negation, where the negation of a negation is what that negates. -/
def negate : Expr → Expr
  | not a => a
  | e => not e

/-! ## The features of an expression -/

def leaves : Expr → List Feature
  | var f => [f]
  | not a => a.leaves
  | and a b | or a b => a.leaves ++ b.leaves

/-- The number of nodes of several trees. -/
def totalSize : List Expr → Nat
  | [] => 0
  | e :: es => e.size + totalSize es

/-- Walks the trees of `todo` from left to right and adds to `found`, at its end, every feature
that it does not hold yet.  The work list keeps the walk from nesting as deep as the trees are. -/
def collect (found : List Feature) (todo : List Expr) : List Feature :=
  match todo with
  | [] => found
  | var f :: rest => collect (if f ∈ found then found else found ++ [f]) rest
  | not a :: rest => collect found (a :: rest)
  | and a b :: rest | or a b :: rest => collect found (a :: b :: rest)
termination_by totalSize todo
decreasing_by all_goals simp only [totalSize, size]; omega

/-- The features of the expression, each once, in the order of their first appearance. -/
def vars (e : Expr) : List Feature :=
  collect [] [e]

end Expr

end ProductLine
