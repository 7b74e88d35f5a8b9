/- # The vocabulary of a conversion — no foreign literals

Every clause of a conversion is, as a set, a member of the naive
distribution, and distribution only puts together literals that it finds.
So a conversion names the features of its expression and no others.
-/
import ProductLine.Proofs.Cnf.Distribution

namespace ProductLine.Cnf

open scoped FinsetFamily

mutual

theorem mem_literals_of_mem_distribution :
    ∀ (n : Nnf) {s : Finset Literal}, s ∈ distribution n → ∀ l ∈ s, l ∈ n.literals
  | .literal k, s, hs, l, hl => by
      rw [distribution, Finset.mem_singleton] at hs
      subst hs
      rw [Nnf.literals, List.mem_singleton]
      exact Finset.mem_singleton.mp hl
  | .all items, s, hs, l, hl => by
      rw [distribution] at hs
      exact mem_literals_of_mem_clausesOfEach items hs l hl
  | .any items, s, hs, l, hl => by
      rw [distribution] at hs
      exact mem_literals_of_mem_choices items hs l hl

theorem mem_literals_of_mem_clausesOfEach :
    ∀ (ns : List Nnf) {s : Finset Literal}, s ∈ clausesOfEach ns →
      ∀ l ∈ s, l ∈ Nnf.literalsOfEach ns
  | [], s, hs, _, _ => by
      rw [clausesOfEach] at hs
      exact absurd hs (Finset.notMem_empty s)
  | n :: ns, s, hs, l, hl => by
      rw [clausesOfEach] at hs
      rw [Nnf.literalsOfEach, List.mem_append]
      rcases Finset.mem_union.mp hs with hs | hs
      · exact .inl (mem_literals_of_mem_distribution n hs l hl)
      · exact .inr (mem_literals_of_mem_clausesOfEach ns hs l hl)

theorem mem_literals_of_mem_choices :
    ∀ (ns : List Nnf) {s : Finset Literal}, s ∈ choices ns → ∀ l ∈ s, l ∈ Nnf.literalsOfEach ns
  | [], s, hs, l, hl => by
      rw [choices, Finset.mem_singleton] at hs
      subst hs
      exact absurd hl (Finset.notMem_empty l)
  | n :: ns, s, hs, l, hl => by
      rw [choices] at hs
      obtain ⟨t, ht, u, hu, rfl⟩ := Finset.mem_sups.mp hs
      rw [Nnf.literalsOfEach, List.mem_append]
      rcases Finset.mem_union.mp hl with hl | hl
      · exact .inl (mem_literals_of_mem_distribution n ht l hl)
      · exact .inr (mem_literals_of_mem_choices ns hu l hl)

end

/-- A clause of a conversion names features of the expression alone. -/
theorem feature_mem_leaves_of_mem_conversion {e : Expr} {c : Clause} (hc : c ∈ conversion e)
    {l : Literal} (hl : l ∈ c.literals) : l.feature ∈ e.leaves := by
  have essential := essential_of_mem_simplify (distinct_clausesOf (e.nnf false)) hc
  have hmem : c.literalSet ∈ distribution (e.nnf false) :=
    ((equivalent_conversion e).essential essential).1.1
  have occurs : l ∈ e.occurrences false := by
    rw [← Expr.literals_nnf]
    exact mem_literals_of_mem_distribution _ hmem l (Clause.mem_literalSet.mpr hl)
  rw [← e.map_feature_occurrences false]
  exact List.mem_map_of_mem occurs

end ProductLine.Cnf
