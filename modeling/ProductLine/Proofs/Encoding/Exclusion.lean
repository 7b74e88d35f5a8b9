/- # Exclusions — one clause, one forbidden configuration

The clause of an exclusion goes through the features of a model once: those
that are excluded, negated and in the order given, and then the others.  Every
feature has a literal, so an assignment that makes all of these false is
settled on every feature, and it is the excluded configuration
(`eval_excludedClause_eq_false_iff`).  The converse is what makes a list of
features good for no more than the set that it lists: the assignment of the
configuration itself tells that set apart from any other one
(`mem_iff_of_selects_configuration`).
-/
import ProductLine.Proofs.Cnf.Fixpoint
import ProductLine.Proofs.Draft

namespace ProductLine

variable {all listed listed' excluded : List Feature} {σ : Assignment} {f : Feature}

/-! ## Configurations as assignments -/

/-- The assignment that selects the listed features and nothing else. -/
def configuration (listed : List Feature) : Assignment :=
  fun f => listed.contains f

theorem configuration_eq_true_iff : configuration listed f = true ↔ f ∈ listed :=
  List.contains_iff_mem

theorem selects_configuration (all listed : List Feature) :
    Selects (configuration listed) all listed := by
  refine ⟨fun f hf => configuration_eq_true_iff.mpr hf, fun f _ hnot => ?_⟩
  exact Bool.eq_false_iff.mpr fun h => hnot (configuration_eq_true_iff.mp h)

theorem selects_congr (same : ∀ f, f ∈ listed ↔ f ∈ listed') :
    Selects σ all listed ↔ Selects σ all listed' := by
  simp only [Selects, same]

/-- A configuration is that of one set of features of the model. -/
theorem mem_iff_of_selects_configuration (declared : listed ⊆ all)
    (h : Selects (configuration listed) all listed') : f ∈ listed ↔ f ∈ listed' := by
  obtain ⟨chosen, others⟩ := h
  constructor
  · intro hf
    by_contra hnot
    have deselected := others f (declared hf) hnot
    rw [configuration_eq_true_iff.mpr hf] at deselected
    cases deselected
  · exact fun hf => configuration_eq_true_iff.mp (chosen f hf)

namespace Encoding

/-! ## The literals of the clause -/

theorem perm_map_feature_excludedClause (distinct : all.Nodup) (distinct' : excluded.Nodup)
    (declared : excluded ⊆ all) :
    ((excludedClause all excluded).literals.map Literal.feature).Perm all := by
  have once := nodup_map_feature_excludedClause distinct' distinct
  refine (List.perm_ext_iff_of_nodup once distinct).mpr fun f => ?_
  rw [map_feature_excludedClause]
  by_cases hf : f ∈ excluded
  · exact iff_of_true (List.mem_append_left _ hf) (declared hf)
  · simp [hf]

theorem negated_iff_of_mem_excludedClause {l : Literal}
    (h : l ∈ (excludedClause all excluded).literals) : l.negated = true ↔ l.feature ∈ excluded := by
  rcases List.mem_append.mp h with h | h
  · obtain ⟨f, hf, rfl⟩ := List.mem_map.mp h
    exact iff_of_true rfl hf
  · obtain ⟨f, hf, rfl⟩ := List.mem_map.mp h
    have other : f ∉ excluded := by simpa using (List.mem_filter.mp hf).2
    exact iff_of_false Bool.false_ne_true other

/-! ## What the clause forbids -/

theorem eval_excludedClause_eq_false_iff :
    (excludedClause all excluded).eval σ = false ↔ Selects σ all excluded := by
  rw [← Bool.not_eq_true, eval_excludedClause_iff, not_not]

/-- Clauses of exclusions are worth the same if they exclude the same features. -/
theorem eval_excludedClause_congr_iff (declared : listed ⊆ all) :
    (∀ σ, (excludedClause all listed).eval σ = (excludedClause all listed').eval σ) ↔
      ∀ f, f ∈ listed ↔ f ∈ listed' := by
  constructor
  · intro same f
    have forbidden : (excludedClause all listed').eval (configuration listed) = false := by
      rw [← same]
      exact eval_excludedClause_eq_false_iff.mpr (selects_configuration all listed)
    exact mem_iff_of_selects_configuration declared (eval_excludedClause_eq_false_iff.mp forbidden)
  · intro same σ
    have alike : Selects σ all listed ↔ Selects σ all listed' := selects_congr same
    rw [← eval_excludedClause_eq_false_iff, ← eval_excludedClause_eq_false_iff] at alike
    exact Bool.eq_iff_iff.mpr (by simpa using not_congr alike)

/-- The clause of an exclusion of features of a model, listed once, has a literal for every feature
of the model, negative for the excluded ones, which come first and in their order, and positive for
the others, which follow in the order of the model.  It is false under exactly those assignments
that select the excluded features and no other one of the model; so the exclusions of two lists are
worth the same if and only if these list the same features. -/
theorem excludedClause_forbids (distinct : all.Nodup) (distinct' : excluded.Nodup)
    (declared : excluded ⊆ all) :
    let clause := excludedClause all excluded
    (clause.literals.map Literal.feature).Perm all ∧
    (∀ l ∈ clause.literals, l.negated = true ↔ l.feature ∈ excluded) ∧
    (∃ others : List Feature,
      clause.literals = excluded.map Feature.neg ++ others.map Feature.pos ∧
        others.Sublist all ∧ ∀ f, f ∈ others ↔ f ∈ all ∧ f ∉ excluded) ∧
    (∀ σ, clause.eval σ = false ↔ Selects σ all excluded) ∧
    ∀ excluded' ⊆ all,
      (∀ σ, clause.eval σ = (excludedClause all excluded').eval σ) ↔
        ∀ f, f ∈ excluded ↔ f ∈ excluded' := by
  refine ⟨perm_map_feature_excludedClause distinct distinct' declared,
    fun l => negated_iff_of_mem_excludedClause, ⟨_, rfl, List.filter_sublist, fun f => ?_⟩,
    fun σ => eval_excludedClause_eq_false_iff, fun _ _ => eval_excludedClause_congr_iff declared⟩
  simp

open Cnf.Sample in
/-- The order of the excluded features shows in the clause and not in what it forbids. -/
theorem excludedClause_forbids_reordered :
    ([a, b, c].Nodup ∧ [c, a].Nodup ∧ [c, a] ⊆ [a, b, c] ∧ [a, c] ⊆ [a, b, c] ∧
      [b] ⊆ [a, b, c]) ∧
    (excludedClause [a, b, c] [c, a]).text = "!C | !A | B" ∧
    (∀ σ, (excludedClause [a, b, c] [c, a]).eval σ = false ↔ Selects σ [a, b, c] [c, a]) ∧
    (∀ σ, (excludedClause [a, b, c] [c, a]).eval σ = (excludedClause [a, b, c] [a, c]).eval σ) ∧
    ¬ ∀ σ, (excludedClause [a, b, c] [c, a]).eval σ = (excludedClause [a, b, c] [b]).eval σ := by
  have inside : [a, b, c].Nodup ∧ [c, a].Nodup ∧ [c, a] ⊆ [a, b, c] ∧ [a, c] ⊆ [a, b, c] ∧
      [b] ⊆ [a, b, c] := by decide
  obtain ⟨distinct, distinct', declared, reordered, another⟩ := id inside
  obtain ⟨-, -, -, forbids, alike⟩ := excludedClause_forbids distinct distinct' declared
  refine ⟨inside, by decide, forbids, (alike [a, c] reordered).mpr fun f => ?_, fun same => ?_⟩
  · simp [or_comm]
  · exact absurd ((alike [b] another).mp same b) (by decide)

end Encoding

end ProductLine
