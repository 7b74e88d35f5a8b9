/- # Families of clauses — what distribution means, with nothing simplified

As a set of literals a clause has no order and no repetitions.  Distributing
a negation normal form naively gives a *family* of such sets: the literal's
own clause, the union over the items of a conjunction, and for a disjunction
every union of one clause from each item.  `distribution` is that definition;
it simplifies nothing.

What simplification may drop is measured by *coverage*.  One family covers
another if every clause of the other that is no tautology includes one of its
own.  Coverage passes through unions and through products, since a part of a
clause that is no tautology is no tautology either.  And two families that
cover each other have the same *essential* clauses, the smallest of those
that are no tautologies (`Equivalent.essential_iff`): that is why it does not
matter when, or how often, the rest is dropped.
-/
import Mathlib.Data.Finset.Sups
import Mathlib.Order.Minimal
import ProductLine.Clause
import ProductLine.Nnf

namespace ProductLine

/-- The literals of the clause, as a set. -/
def Clause.literalSet (c : Clause) : Finset Literal :=
  c.literals.toFinset

theorem Clause.mem_literalSet {c : Clause} {l : Literal} :
    l ∈ c.literalSet ↔ l ∈ c.literals :=
  List.mem_toFinset

theorem Clause.literalSet_subset_iff {c d : Clause} :
    c.literalSet ⊆ d.literalSet ↔ c.subsumes d = true := by
  rw [subsumes_iff]
  exact ⟨fun h l hl => mem_literalSet.mp (h (mem_literalSet.mpr hl)),
    fun h l hl => mem_literalSet.mpr (h l (mem_literalSet.mp hl))⟩

theorem Clause.literalSet_merge (c d : Clause) :
    (c.merge d).literalSet = c.literalSet ∪ d.literalSet := by
  ext l
  rw [Finset.mem_union, mem_literalSet, mem_literalSet, mem_literalSet, mem_literals_merge]

namespace Cnf

open scoped FinsetFamily

/-- A set of clauses, each a set of literals. -/
abbrev Family := Finset (Finset Literal)

/-- Some feature occurs with both polarities. -/
def Tautological (s : Finset Literal) : Prop :=
  ∃ l ∈ s, l.negate ∈ s

instance decTautological (s : Finset Literal) : Decidable (Tautological s) :=
  inferInstanceAs (Decidable (∃ l ∈ s, l.negate ∈ s))

theorem Tautological.mono {s t : Finset Literal} (h : s ⊆ t) :
    Tautological s → Tautological t := by
  rintro ⟨l, hl, hn⟩
  exact ⟨l, h hl, h hn⟩

theorem tautological_literalSet_iff {c : Clause} :
    Tautological c.literalSet ↔ c.isTautology = true := by
  simp only [Tautological, Clause.isTautology_iff, Clause.mem_literalSet]

/-- The clauses of a list, as a family. -/
def family (cs : List Clause) : Family :=
  (cs.map Clause.literalSet).toFinset

theorem mem_family {cs : List Clause} {s : Finset Literal} :
    s ∈ family cs ↔ ∃ c ∈ cs, c.literalSet = s := by
  rw [family, List.mem_toFinset, List.mem_map]

theorem family_append (cs ds : List Clause) : family (cs ++ ds) = family cs ∪ family ds := by
  rw [family, List.map_append, List.toFinset_append, family, family]

/-! ## Naive distribution -/

mutual

/-- The clauses of a form by distribution alone. -/
def distribution : Nnf → Family
  | .literal l => {{l}}
  | .all items => clausesOfEach items
  | .any items => choices items

/-- The clauses of all items. -/
def clausesOfEach : List Nnf → Family
  | [] => ∅
  | n :: ns => distribution n ∪ clausesOfEach ns

/-- The unions of one clause from each item. -/
def choices : List Nnf → Family
  | [] => {∅}
  | n :: ns => distribution n ⊻ choices ns

end

/-! ## Essential members -/

/-- The set is in the family, is no tautology, and includes no smaller such set. -/
def Essential (S : Family) : Finset Literal → Prop :=
  Minimal fun s => s ∈ S ∧ ¬ Tautological s

/-- Every member of `T` that is no tautology includes a member of `S`. -/
def Covers (S T : Family) : Prop :=
  ∀ t ∈ T, ¬ Tautological t → ∃ s ∈ S, s ⊆ t

/-- The families cover each other. -/
structure Equivalent (S T : Family) : Prop where
  forth : Covers S T
  back : Covers T S

section Coverage

variable {S S' T T' U : Family}

theorem covers_of_subset (h : T ⊆ S) : Covers S T :=
  fun t ht _ => ⟨t, h ht, Finset.Subset.refl t⟩

theorem Covers.trans (h : Covers S T) (h' : Covers T U) : Covers S U := by
  intro u hu hnot
  obtain ⟨t, ht, htu⟩ := h' u hu hnot
  obtain ⟨s, hs, hst⟩ := h t ht fun htaut => hnot (htaut.mono htu)
  exact ⟨s, hs, hst.trans htu⟩

theorem Covers.union (h : Covers S T) (h' : Covers S' T') : Covers (S ∪ S') (T ∪ T') := by
  intro t ht hnot
  rcases Finset.mem_union.mp ht with ht | ht
  · obtain ⟨s, hs, hst⟩ := h t ht hnot
    exact ⟨s, Finset.mem_union_left _ hs, hst⟩
  · obtain ⟨s, hs, hst⟩ := h' t ht hnot
    exact ⟨s, Finset.mem_union_right _ hs, hst⟩

/-- Merging can make tautologies, but never takes one apart. -/
theorem Covers.sups (h : Covers S T) (h' : Covers S' T') : Covers (S ⊻ S') (T ⊻ T') := by
  intro u hu hnot
  obtain ⟨t, ht, t', ht', rfl⟩ := Finset.mem_sups.mp hu
  obtain ⟨s, hs, hst⟩ := h t ht fun htaut => hnot (htaut.mono Finset.subset_union_left)
  obtain ⟨s', hs', hst'⟩ := h' t' ht' fun htaut => hnot (htaut.mono Finset.subset_union_right)
  exact ⟨s ⊔ s', Finset.mem_sups.mpr ⟨s, hs, s', hs', rfl⟩, Finset.union_subset_union hst hst'⟩

theorem Equivalent.refl (S : Family) : Equivalent S S :=
  ⟨covers_of_subset (Finset.Subset.refl S), covers_of_subset (Finset.Subset.refl S)⟩

theorem Equivalent.symm (h : Equivalent S T) : Equivalent T S :=
  ⟨h.back, h.forth⟩

theorem Equivalent.trans (h : Equivalent S T) (h' : Equivalent T U) : Equivalent S U :=
  ⟨h.forth.trans h'.forth, h'.back.trans h.back⟩

theorem Equivalent.union (h : Equivalent S T) (h' : Equivalent S' T') :
    Equivalent (S ∪ S') (T ∪ T') :=
  ⟨h.forth.union h'.forth, h.back.union h'.back⟩

theorem Equivalent.sups (h : Equivalent S T) (h' : Equivalent S' T') :
    Equivalent (S ⊻ S') (T ⊻ T') :=
  ⟨h.forth.sups h'.forth, h.back.sups h'.back⟩

theorem Equivalent.essential (h : Equivalent S T) {s : Finset Literal} :
    Essential S s → Essential T s := by
  rintro ⟨⟨hs, hnot⟩, least⟩
  -- a smaller member of either family leads back to `s` through the other one
  have fixed : ∀ t ∈ T, t ⊆ s → s ⊆ t := by
    intro t ht hts
    have hnot_t : ¬ Tautological t := fun htaut => hnot (htaut.mono hts)
    obtain ⟨s', hs', hst⟩ := h.forth t ht hnot_t
    have hss : s ⊆ s' := least ⟨hs', fun htaut => hnot_t (htaut.mono hst)⟩ (hst.trans hts)
    exact hss.trans hst
  obtain ⟨t, ht, hts⟩ := h.back s hs hnot
  obtain rfl : t = s := hts.antisymm (fixed t ht hts)
  exact ⟨⟨ht, hnot⟩, fun u hu hut => fixed u hu.1 hut⟩

/-- Families that cover each other have the same essential members. -/
theorem Equivalent.essential_iff (h : Equivalent S T) {s : Finset Literal} :
    Essential S s ↔ Essential T s :=
  ⟨h.essential, h.symm.essential⟩

end Coverage

end Cnf

end ProductLine
