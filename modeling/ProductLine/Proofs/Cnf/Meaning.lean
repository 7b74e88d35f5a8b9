/- # Conversion keeps meaning — an expression is true where all its clauses are

A family of clauses holds under an assignment if each of its clauses has a
true literal.  Covering families hold together, because a tautology always
has a true literal and a clause has one if a part of it has.  The naive
distribution holds exactly where the negation normal form is true, and the
clauses of a conversion are equivalent to it; so whatever limits a conversion
had, and however it got past them, its clauses mean what its expression
means (`evalAll_convert`).
-/
import ProductLine.Proofs.ClauseTruth
import ProductLine.Proofs.Cnf.Distribution

namespace ProductLine.Cnf

open scoped FinsetFamily

/-- Every clause of the family has a true literal. -/
def Holds (σ : Assignment) (S : Family) : Prop :=
  ∀ s ∈ S, ∃ l ∈ s, l.eval σ = true

section Truth

variable {σ : Assignment} {S T : Family}

theorem exists_true_of_tautological {s : Finset Literal} (h : Tautological s) :
    ∃ l ∈ s, l.eval σ = true := by
  obtain ⟨l, hl, hn⟩ := h
  rcases l.eval_or_eval_negate σ with hv | hv
  · exact ⟨l, hl, hv⟩
  · exact ⟨l.negate, hn, hv⟩

theorem Covers.holds (h : Covers S T) (hS : Holds σ S) : Holds σ T := by
  intro t ht
  by_cases htaut : Tautological t
  · exact exists_true_of_tautological htaut
  · obtain ⟨s, hs, hst⟩ := h t ht htaut
    obtain ⟨l, hl, hv⟩ := hS s hs
    exact ⟨l, hst hl, hv⟩

theorem Equivalent.holds_iff (h : Equivalent S T) : Holds σ S ↔ Holds σ T :=
  ⟨h.forth.holds, h.back.holds⟩

theorem holds_union_iff : Holds σ (S ∪ T) ↔ Holds σ S ∧ Holds σ T := by
  constructor
  · intro h
    exact ⟨fun s hs => h s (Finset.mem_union_left _ hs),
      fun t ht => h t (Finset.mem_union_right _ ht)⟩
  · rintro ⟨hS, hT⟩ s hs
    rcases Finset.mem_union.mp hs with hs | hs
    · exact hS s hs
    · exact hT s hs

/-- A product fails where both factors do: at the union of two false clauses. -/
theorem holds_sups_iff : Holds σ (S ⊻ T) ↔ Holds σ S ∨ Holds σ T := by
  constructor
  · intro h
    by_contra hnot
    obtain ⟨hS, hT⟩ := not_or.mp hnot
    simp only [Holds, not_forall, not_exists, not_and] at hS hT
    obtain ⟨s, hs, hs_false⟩ := hS
    obtain ⟨t, ht, ht_false⟩ := hT
    obtain ⟨l, hl, hv⟩ := h (s ⊔ t) (Finset.mem_sups.mpr ⟨s, hs, t, ht, rfl⟩)
    rcases Finset.mem_union.mp hl with hl | hl
    · exact hs_false l hl hv
    · exact ht_false l hl hv
  · intro h u hu
    obtain ⟨s, hs, t, ht, rfl⟩ := Finset.mem_sups.mp hu
    rcases h with hS | hT
    · obtain ⟨l, hl, hv⟩ := hS s hs
      exact ⟨l, Finset.mem_union_left _ hl, hv⟩
    · obtain ⟨l, hl, hv⟩ := hT t ht
      exact ⟨l, Finset.mem_union_right _ hl, hv⟩

theorem holds_family_iff {cs : List Clause} :
    Holds σ (family cs) ↔ Clause.evalAll σ cs = true := by
  simp only [Holds, mem_family, Clause.evalAll_eq_true_iff, Clause.eval_eq_true_iff]
  constructor
  · intro h c hc
    obtain ⟨l, hl, hv⟩ := h c.literalSet ⟨c, hc, rfl⟩
    exact ⟨l, Clause.mem_literalSet.mp hl, hv⟩
  · rintro h s ⟨c, hc, rfl⟩
    obtain ⟨l, hl, hv⟩ := h c hc
    exact ⟨l, Clause.mem_literalSet.mpr hl, hv⟩

end Truth

mutual

/-- Distribution means what the form means. -/
theorem holds_distribution_iff {σ : Assignment} :
    ∀ (n : Nnf), Holds σ (distribution n) ↔ n.eval σ = true
  | .literal l => by
      simp [distribution, Holds, Nnf.eval]
  | .all items => by
      rw [distribution, Nnf.eval]
      exact holds_clausesOfEach_iff items
  | .any items => by
      rw [distribution, Nnf.eval]
      exact holds_choices_iff items

theorem holds_clausesOfEach_iff {σ : Assignment} :
    ∀ (ns : List Nnf), Holds σ (clausesOfEach ns) ↔ Nnf.evalAll σ ns = true
  | [] => by
      simp [clausesOfEach, Holds, Nnf.evalAll]
  | n :: ns => by
      rw [clausesOfEach, holds_union_iff, Nnf.evalAll, Bool.and_eq_true]
      exact and_congr (holds_distribution_iff n) (holds_clausesOfEach_iff ns)

theorem holds_choices_iff {σ : Assignment} :
    ∀ (ns : List Nnf), Holds σ (choices ns) ↔ Nnf.evalAny σ ns = true
  | [] => by
      simp [choices, Holds, Nnf.evalAny]
  | n :: ns => by
      rw [choices, holds_sups_iff, Nnf.evalAny, Bool.or_eq_true]
      exact or_congr (holds_distribution_iff n) (holds_choices_iff ns)

end

/-- The clauses of an expression have its value, read as a conjunction. -/
theorem evalAll_conversion (σ : Assignment) (e : Expr) :
    Clause.evalAll σ (conversion e) = e.eval σ := by
  have h : Clause.evalAll σ (conversion e) = true ↔ e.eval σ = true := by
    rw [← holds_family_iff, (equivalent_conversion e).holds_iff, holds_distribution_iff,
      Expr.eval_nnf, Bool.bne_false]
  exact Bool.eq_iff_iff.mpr h

/-- Whatever its limits are, a conversion that returns keeps the meaning of its expression. -/
theorem evalAll_convert {limits : Limits} {e : Expr} {cs : List Clause}
    (h : convert limits e = .ok cs) (σ : Assignment) :
    Clause.evalAll σ cs = e.eval σ := by
  rw [eq_of_convert_eq_ok h]
  exact evalAll_conversion σ e

open Cnf.Sample in
theorem evalAll_branchingClauses :
    convert {} branching = .ok branchingClauses ∧
      ∀ σ, Clause.evalAll σ branchingClauses = branching.eval σ := by
  have h : convert {} branching = .ok branchingClauses := by decide
  exact ⟨h, fun σ => evalAll_convert h σ⟩

end ProductLine.Cnf
