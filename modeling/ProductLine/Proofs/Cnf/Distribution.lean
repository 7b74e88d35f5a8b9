/- # Distribution — conversion step by step agrees with distributing first

The conversion simplifies after every conjunction and after every factor of a
disjunction; `distribution` never does.  Between the two stands the invariant
that the clauses at hand and the naive family cover each other: it holds of a
literal, it passes through unions and products, and simplification keeps it.
So the essential clauses are the same throughout, and a last simplification
leaves nothing but these (`mem_convert_iff_essential`).

That last step needs that no clause repeats a literal, since simplification
compares lengths where inclusion compares sets; merging takes care of it.
-/
import ProductLine.Proofs.Cnf.Family
import ProductLine.Proofs.Cnf.Simplify
import ProductLine.Proofs.Cnf.Unlimited
import ProductLine.Proofs.Nnf

namespace ProductLine.Cnf

open scoped FinsetFamily

/-! ## Clauses without repetitions -/

theorem distinct_insert {c : Clause} (h : c.Distinct) (l : Literal) : (c.insert l).Distinct := by
  unfold Clause.insert
  split
  case isTrue => exact h
  case isFalse hl =>
    have fresh : l ∉ c.literals := fun hmem => hl (List.contains_iff_mem.mpr hmem)
    exact List.nodup_append.mpr ⟨h, List.nodup_singleton l, by
      rintro k hk _ hl' rfl
      rw [List.mem_singleton] at hl'
      exact fresh (hl' ▸ hk)⟩

theorem distinct_merge {c : Clause} (h : c.Distinct) (d : Clause) : (c.merge d).Distinct := by
  obtain ⟨ls⟩ := d
  unfold Clause.merge
  induction ls generalizing c with
  | nil => exact h
  | cons l ls ih => exact ih (distinct_insert h l)

theorem mem_product_iff {cs ds : List Clause} {e : Clause} :
    e ∈ product cs ds ↔ ∃ c ∈ cs, ∃ d ∈ ds, c.merge d = e ∧ e.isTautology = false := by
  simp only [product, List.mem_flatMap, mem_withoutTautologies_iff, List.mem_map]
  constructor
  · rintro ⟨c, hc, ⟨d, hd, rfl⟩, ht⟩
    exact ⟨c, hc, d, hd, rfl, ht⟩
  · rintro ⟨c, hc, d, hd, rfl, ht⟩
    exact ⟨c, hc, ⟨d, hd, rfl⟩, ht⟩

mutual

theorem distinct_clausesOf : ∀ (n : Nnf), ∀ c ∈ clausesOf n, c.Distinct
  | .literal l, c, hc => by
      rw [clausesOf, List.mem_singleton] at hc
      subst hc
      exact List.nodup_singleton l
  | .all items, c, hc => by
      rw [clausesOf] at hc
      exact distinct_gathered items c (mem_of_mem_simplify hc).1
  | .any items, c, hc => by
      rw [clausesOf] at hc
      refine distinct_distributed items ?_ c hc
      intro d hd
      rw [List.mem_singleton.mp hd]
      exact List.nodup_nil

theorem distinct_gathered : ∀ (ns : List Nnf), ∀ c ∈ gathered ns, c.Distinct
  | [], c, hc => by
      rw [gathered] at hc
      exact absurd hc List.not_mem_nil
  | n :: ns, c, hc => by
      rw [gathered] at hc
      rcases List.mem_append.mp hc with hc | hc
      · exact distinct_clausesOf n c hc
      · exact distinct_gathered ns c hc

theorem distinct_distributed :
    ∀ (ns : List Nnf) {sofar : List Clause}, (∀ c ∈ sofar, c.Distinct) →
      ∀ c ∈ distributed sofar ns, c.Distinct
  | [], _, h, c, hc => by
      rw [distributed] at hc
      exact h c hc
  | n :: ns, sofar, h, c, hc => by
      rw [distributed] at hc
      refine distinct_distributed ns ?_ c hc
      intro e he
      obtain ⟨d, hd, _, -, rfl, -⟩ := mem_product_iff.mp (mem_of_mem_simplify he).1
      exact distinct_merge (h d hd) _

end

/-! ## The families of the steps -/

theorem family_literal (l : Literal) : family [⟨[l]⟩] = {{l}} := rfl

theorem equivalent_simplify (cs : List Clause) : Equivalent (family (simplify cs)) (family cs) := by
  constructor
  · intro t ht hnot
    obtain ⟨c, hc, rfl⟩ := mem_family.mp ht
    have hc_taut : c.isTautology = false :=
      Bool.eq_false_iff.mpr fun h => hnot (tautological_literalSet_iff.mpr h)
    obtain ⟨d, hd, hdc⟩ := exists_mem_simplify_subsumes hc hc_taut
    exact ⟨d.literalSet, mem_family.mpr ⟨d, hd, rfl⟩, Clause.literalSet_subset_iff.mpr hdc⟩
  · refine covers_of_subset ?_
    intro s hs
    obtain ⟨c, hc, rfl⟩ := mem_family.mp hs
    exact mem_family.mpr ⟨c, (mem_of_mem_simplify hc).1, rfl⟩

theorem equivalent_product (cs ds : List Clause) :
    Equivalent (family (product cs ds)) (family cs ⊻ family ds) := by
  constructor
  · intro t ht hnot
    obtain ⟨s, hs, s', hs', rfl⟩ := Finset.mem_sups.mp ht
    obtain ⟨c, hc, rfl⟩ := mem_family.mp hs
    obtain ⟨d, hd, rfl⟩ := mem_family.mp hs'
    have hmerge : (c.merge d).literalSet = c.literalSet ⊔ d.literalSet := c.literalSet_merge d
    have ht_taut : (c.merge d).isTautology = false := by
      refine Bool.eq_false_iff.mpr fun h => hnot ?_
      rw [← hmerge]
      exact tautological_literalSet_iff.mpr h
    exact ⟨_, mem_family.mpr ⟨c.merge d, mem_product_iff.mpr ⟨c, hc, d, hd, rfl, ht_taut⟩, rfl⟩,
      hmerge.subset⟩
  · refine covers_of_subset ?_
    intro s hs
    obtain ⟨e, he, rfl⟩ := mem_family.mp hs
    obtain ⟨c, hc, d, hd, rfl, -⟩ := mem_product_iff.mp he
    exact Finset.mem_sups.mpr ⟨_, mem_family.mpr ⟨c, hc, rfl⟩, _, mem_family.mpr ⟨d, hd, rfl⟩,
      (c.literalSet_merge d).symm⟩

/-! ## The invariant -/

mutual

/-- The clauses of a form and its naive distribution cover each other. -/
theorem equivalent_clausesOf : ∀ (n : Nnf), Equivalent (family (clausesOf n)) (distribution n)
  | .literal l => by
      rw [clausesOf, distribution, family_literal]
      exact Equivalent.refl _
  | .all items => by
      rw [clausesOf, distribution]
      exact (equivalent_simplify _).trans (equivalent_gathered items)
  | .any items => by
      rw [clausesOf, distribution]
      have h := equivalent_distributed items [⟨[]⟩]
      -- the empty clause alone is neutral in a product
      have neutral : family [⟨[]⟩] ⊻ choices items = choices items := by
        show ({⊥} : Family) ⊻ choices items = choices items
        simp
      rwa [neutral] at h

theorem equivalent_gathered : ∀ (ns : List Nnf), Equivalent (family (gathered ns)) (clausesOfEach ns)
  | [] => by
      rw [gathered, clausesOfEach]
      exact Equivalent.refl _
  | n :: ns => by
      rw [gathered, clausesOfEach, family_append]
      exact (equivalent_clausesOf n).union (equivalent_gathered ns)

theorem equivalent_distributed :
    ∀ (ns : List Nnf) (sofar : List Clause),
      Equivalent (family (distributed sofar ns)) (family sofar ⊻ choices ns)
  | [], sofar => by
      rw [distributed, choices]
      have neutral : family sofar ⊻ ({⊥} : Family) = family sofar := by simp
      exact neutral.symm ▸ Equivalent.refl _
  | n :: ns, sofar => by
      rw [distributed, choices, ← Finset.sups_assoc]
      have step : Equivalent (family (simplify (product sofar (clausesOf n))))
          (family sofar ⊻ distribution n) :=
        ((equivalent_simplify _).trans (equivalent_product _ _)).trans
          ((Equivalent.refl _).sups (equivalent_clausesOf n))
      exact (equivalent_distributed ns _).trans (step.sups (Equivalent.refl _))

end

theorem equivalent_conversion (e : Expr) :
    Equivalent (family (conversion e)) (distribution (e.nnf false)) :=
  (equivalent_simplify _).trans (equivalent_clausesOf _)

/-! ## No clause is empty

A flat form has no empty disjunction, and only that would have the empty
clause in its distribution.  What an expression converts to has none then,
since the clauses of the distribution cover it.
-/

theorem empty_notMem_clausesOfEach {ns : List Nnf} (h : ∀ n ∈ ns, ∅ ∉ distribution n) :
    ∅ ∉ clausesOfEach ns := by
  induction ns with
  | nil => exact Finset.notMem_empty _
  | cons n ns ih =>
    obtain ⟨hn, hns⟩ := List.forall_mem_cons.mp h
    rw [clausesOfEach, Finset.mem_union, not_or]
    exact ⟨hn, ih hns⟩

/-- One item without the empty clause is enough: a union is empty only if all its parts are. -/
theorem empty_notMem_choices {n : Nnf} (h : ∅ ∉ distribution n) (ns : List Nnf) :
    ∅ ∉ choices (n :: ns) := by
  intro hmem
  rw [choices] at hmem
  obtain ⟨s, hs, t, -, heq⟩ := Finset.mem_sups.mp hmem
  obtain ⟨rfl, -⟩ := Finset.union_eq_empty.mp heq
  exact h hs

theorem empty_notMem_distribution {n : Nnf} (flat : n.Flat) : ∅ ∉ distribution n := by
  induction flat with
  | literal l =>
    rw [distribution, Finset.mem_singleton]
    exact (Finset.singleton_ne_empty l).symm
  | all _ _ _ ih =>
    rw [distribution]
    exact empty_notMem_clausesOfEach ih
  | @any items long _ _ ih =>
    rw [distribution]
    cases items with
    | nil => exact absurd long (by decide)
    | cons n ns => exact empty_notMem_choices (ih n (.head _)) ns

theorem literals_ne_nil_of_mem_conversion {e : Expr} {c : Clause} (hc : c ∈ conversion e) :
    c.literals ≠ [] := by
  intro hnil
  have empty : c.literalSet = ∅ := by rw [Clause.literalSet, hnil]; rfl
  have hmem : ∅ ∈ family (conversion e) := mem_family.mpr ⟨c, hc, empty⟩
  have hnot : ¬ Tautological ∅ := by
    rintro ⟨l, hl, -⟩
    exact Finset.notMem_empty l hl
  obtain ⟨s, hs, hsub⟩ := (equivalent_conversion e).back _ hmem hnot
  obtain rfl := Finset.subset_empty.mp hsub
  exact empty_notMem_distribution (e.flat_nnf false) hs

/-! ## Simplified lists hold essential clauses only -/

theorem essential_of_mem_simplify {cs : List Clause} (distinct : ∀ c ∈ cs, c.Distinct) {c : Clause}
    (hc : c ∈ simplify cs) : Essential (family (simplify cs)) c.literalSet := by
  have hnot : ¬ Tautological c.literalSet := by
    rw [tautological_literalSet_iff, (mem_of_mem_simplify hc).2]
    exact Bool.false_ne_true
  refine ⟨⟨mem_family.mpr ⟨c, hc, rfl⟩, hnot⟩, ?_⟩
  rintro s ⟨hs, -⟩ hsub
  obtain ⟨d, hd, rfl⟩ := mem_family.mp hs
  have hdc : d.subsumes c = true := Clause.literalSet_subset_iff.mp hsub
  have same : d = c := by
    refine Decidable.byContradiction fun hne => ?_
    have apart : d.subsumes c = false := subsumes_eq_false_of_mem_simplify distinct hd hc hne
    exact Bool.false_ne_true (apart.symm.trans hdc)
  rw [same]

/-- Different clauses of a simplified list are different sets. -/
theorem nodup_map_literalSet_simplify {cs : List Clause} (distinct : ∀ c ∈ cs, c.Distinct) :
    ((simplify cs).map Clause.literalSet).Nodup := by
  refine List.pairwise_map.mpr ((pairwise_simplify distinct).imp ?_)
  rintro c d ⟨hcd, -⟩ heq
  have h : c.subsumes d = true := Clause.literalSet_subset_iff.mp heq.subset
  exact Bool.false_ne_true (hcd.symm.trans h)

theorem mem_simplify_iff_essential {cs : List Clause} (distinct : ∀ c ∈ cs, c.Distinct)
    {s : Finset Literal} :
    s ∈ (simplify cs).map Clause.literalSet ↔ Essential (family (simplify cs)) s := by
  constructor
  · intro h
    obtain ⟨c, hc, rfl⟩ := List.mem_map.mp h
    exact essential_of_mem_simplify distinct hc
  · intro h
    exact List.mem_map.mpr (mem_family.mp h.1.1)

/-- Whenever a conversion returns, its clauses as sets of literals, each there once, are the
essential members of the naive distribution of the negation normal form. -/
theorem mem_convert_iff_essential {limits : Limits} {e : Expr} {cs : List Clause}
    (h : convert limits e = .ok cs) :
    (cs.map Clause.literalSet).Nodup ∧
      ∀ s, s ∈ cs.map Clause.literalSet ↔ Essential (distribution (e.nnf false)) s := by
  obtain rfl := eq_of_convert_eq_ok h
  have distinct := distinct_clausesOf (e.nnf false)
  refine ⟨nodup_map_literalSet_simplify distinct, fun s => ?_⟩
  exact (mem_simplify_iff_essential distinct).trans (equivalent_conversion e).essential_iff

namespace Sample

def a : Feature := ⟨"A", by decide⟩
def b : Feature := ⟨"B", by decide⟩
def c : Feature := ⟨"C", by decide⟩

/-- `(A & B | !A & C) & (A | B | C)`, whose distribution has a tautology, `A | !A`, and a clause
that includes another one, `A | B | C`. -/
def branching : Expr :=
  .and (.or (.and (.var a) (.var b)) (.and (.not (.var a)) (.var c)))
    (.or (.or (.var a) (.var b)) (.var c))

/-- `A | C`, `B | !A` and `B | C`. -/
def branchingClauses : List Clause :=
  [⟨[a.pos, c.pos]⟩, ⟨[b.pos, a.neg]⟩, ⟨[b.pos, c.pos]⟩]

end Sample

open Cnf.Sample in
theorem essential_branching :
    convert {} branching = .ok branchingClauses ∧
      Essential (distribution (branching.nnf false)) {b.pos, a.neg} ∧
        ¬ Essential (distribution (branching.nnf false)) {a.pos, b.pos, c.pos} := by
  have h : convert {} branching = .ok branchingClauses := by decide
  refine ⟨h, ((mem_convert_iff_essential h).2 _).mp (by decide), fun hess => ?_⟩
  exact absurd (((mem_convert_iff_essential h).2 _).mpr hess) (by decide)

end ProductLine.Cnf
