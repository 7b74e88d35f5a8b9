/- # The shape of a conversion — short clauses, none of which another one implies

The clauses of a conversion name features of the expression, each at most once
in a clause, and no clause includes another one.  So there is nothing left in
them to simplify.

Only what is always true leaves no clause at all: any clause that is left is
false under the assignment that makes each of its literals false.  There is
such an assignment, since the clause has no literal together with its negation
(`Clause.eval_falsifier`).
-/
import ProductLine.Proofs.Cnf.Meaning
import ProductLine.Proofs.Cnf.Vocabulary

namespace ProductLine

namespace Cnf

/-- Nothing in the clauses says what another part of them says already, and nothing in them is
about a feature that the expression does not name. -/
structure Irredundant (e : Expr) (cs : List Clause) : Prop where
  nonempty : ∀ c ∈ cs, c.literals ≠ []
  distinct : ∀ c ∈ cs, c.Distinct
  consistent : ∀ c ∈ cs, ∀ l ∈ c.literals, l.negate ∉ c.literals
  independent : ∀ i j (hi : i < cs.length) (hj : j < cs.length), i ≠ j →
    cs[i].subsumes cs[j] = false
  vocabulary : ∀ c ∈ cs, ∀ l ∈ c.literals, l.feature ∈ e.leaves

/-- A clause that occurs twice would subsume itself. -/
theorem Irredundant.nodup {e : Expr} {cs : List Clause} (h : Irredundant e cs) : cs.Nodup := by
  refine List.nodup_iff_injective_get.mpr fun i j same => ?_
  by_contra apart
  have different : i.val ≠ j.val := fun heq => apart (Fin.ext heq)
  have none := h.independent i j i.isLt j.isLt different
  rw [show cs[i.val] = cs[j.val] from same, Clause.subsumes_refl] at none
  cases none

theorem irredundant_conversion (e : Expr) : Irredundant e (conversion e) where
  nonempty c hc := literals_ne_nil_of_mem_conversion hc
  distinct c hc := distinct_clausesOf _ c (mem_of_mem_simplify hc).1
  consistent c hc := Clause.isTautology_eq_false_iff.mp (mem_of_mem_simplify hc).2
  independent i j hi hj apart := by
    have pairs :=
      List.pairwise_iff_getElem.mp (pairwise_simplify (distinct_clausesOf (e.nnf false)))
    rcases Nat.lt_or_gt_of_ne apart with before | after
    · exact (pairs i j hi hj before).1
    · exact (pairs j i hj hi after).2
  vocabulary c hc l hl := feature_mem_leaves_of_mem_conversion hc hl

/-- No clause is left exactly if the expression is always true. -/
theorem conversion_eq_nil_iff {e : Expr} : conversion e = [] ↔ ∀ σ, e.eval σ = true := by
  constructor
  · intro h σ
    rw [← evalAll_conversion, h, Clause.evalAll_nil]
  · intro valid
    refine List.eq_nil_iff_forall_not_mem.mpr fun c hc => ?_
    have holds : Clause.evalAll c.falsifier (conversion e) = true := by
      rw [evalAll_conversion]
      exact valid c.falsifier
    have holds_c : c.eval c.falsifier = true := Clause.evalAll_eq_true_iff.mp holds c hc
    have fails_c : c.eval c.falsifier = false := Clause.eval_falsifier (mem_of_mem_simplify hc).2
    exact Bool.false_ne_true (fails_c.symm.trans holds_c)

/-- Whatever its limits are, a conversion that returns leaves clauses that are not empty, repeat no
literal and no feature, do not subsume one another, and name features of the expression alone.  It
leaves none exactly if the expression is true under every assignment. -/
theorem irredundant_convert {limits : Limits} {e : Expr} {cs : List Clause}
    (h : convert limits e = .ok cs) :
    Irredundant e cs ∧ cs.Nodup ∧ (cs = [] ↔ ∀ σ, e.eval σ = true) := by
  obtain rfl := eq_of_convert_eq_ok h
  have shape := irredundant_conversion e
  exact ⟨shape, shape.nodup, conversion_eq_nil_iff⟩

open Cnf.Sample in
/-- One expression that is false somewhere, and one that is not. -/
theorem irredundant_convert_branching :
    (convert {} branching = .ok branchingClauses ∧ Irredundant branching branchingClauses ∧
      ¬ ∀ σ, branching.eval σ = true) ∧
    convert {} (.or (.var a) (.not (.var a))) = .ok [] ∧
      ∀ σ, (Expr.or (.var a) (.not (.var a))).eval σ = true := by
  have some : convert {} branching = .ok branchingClauses := by decide
  have none : convert {} (.or (.var a) (.not (.var a))) = .ok [] := by decide
  refine ⟨⟨some, (irredundant_convert some).1, fun valid => ?_⟩, none, ?_⟩
  · exact absurd ((irredundant_convert some).2.2.mpr valid) (by decide)
  · exact (irredundant_convert none).2.2.mp rfl

end Cnf

end ProductLine
