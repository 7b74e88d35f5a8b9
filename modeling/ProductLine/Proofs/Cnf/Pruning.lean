/- # Pruning — a simplification loses nothing and leaves nothing to drop

What a simplification returns is a part of what it was given, in the same
order (`Pruned.sublist`), and whatever is missing there was a tautology or is
covered by a clause that stayed (`Pruned.covered`).  These two decide the rest of
its meaning: a part of a conjunction follows from the whole, and the whole
follows from a part that covers it, since a clause implies what it subsumes.

Coverage is said of every clause of the list and not of those only that do not
occur in the result: where a clause stands twice, the copy that is dropped is
covered by the one that stays.

A deadline can stop a simplification and change nothing else about it: one that
returns has pruned the clauses, whatever the clock showed, and it returns if the
clock never shows the deadline from then on (`Limits.InTime`).
-/
import ProductLine.Proofs.ClauseTruth
import ProductLine.Proofs.Cnf.Distribution

namespace ProductLine.Cnf

/-- The clauses `kept` are what is left of `cs` when all that says nothing new is dropped. -/
structure Pruned (cs kept : List Clause) : Prop where
  sublist : kept.Sublist cs
  proper : ∀ c ∈ kept, c.isTautology = false
  covered : ∀ c ∈ cs, c.isTautology = true ∨ ∃ d ∈ kept, d.subsumes c = true
  independent : (∀ c ∈ cs, c.Distinct) →
    kept.Pairwise fun c d => c.subsumes d = false ∧ d.subsumes c = false
  evalAll_eq : ∀ σ, Clause.evalAll σ kept = Clause.evalAll σ cs

section Truth

variable {σ : Assignment} {cs kept : List Clause}

/-- A part of the clauses that covers the others is true where all of them are. -/
theorem evalAll_eq_of_covered (part : ∀ c ∈ kept, c ∈ cs)
    (covered : ∀ c ∈ cs, c.isTautology = true ∨ ∃ d ∈ kept, d.subsumes c = true) :
    Clause.evalAll σ kept = Clause.evalAll σ cs := by
  rw [Bool.eq_iff_iff, Clause.evalAll_eq_true_iff, Clause.evalAll_eq_true_iff]
  constructor
  · intro holds c hc
    rcases covered c hc with tautology | ⟨d, hd, below⟩
    · exact Clause.eval_of_isTautology tautology σ
    · exact Clause.eval_of_subsumes below (holds d hd)
  · intro holds c hc
    exact holds c (part c hc)

end Truth

theorem covered_simplify (cs : List Clause) :
    ∀ c ∈ cs, c.isTautology = true ∨ ∃ d ∈ simplify cs, d.subsumes c = true := by
  intro c hc
  cases proper : c.isTautology with
  | true => exact .inl rfl
  | false => exact .inr (exists_mem_simplify_subsumes hc proper)

theorem pruned_simplify (cs : List Clause) : Pruned cs (simplify cs) where
  sublist := (simplify_sublist cs).trans List.filter_sublist
  proper _ hc := (mem_of_mem_simplify hc).2
  covered := covered_simplify cs
  independent := pairwise_simplify
  evalAll_eq _ := evalAll_eq_of_covered (fun _ hc => (mem_of_mem_simplify hc).1)
    (covered_simplify cs)

/-- A simplification whose deadline is not reached returns.  Whatever it returns, under any limits,
are the clauses pruned, and simplifying these changes nothing any more. -/
theorem simplify_prunes (limits : Limits) (cs : List Clause) (looks : Nat) :
    (limits.InTime looks → ∃ kept looks', limits.simplify cs looks = .ok (kept, looks')) ∧
      ∀ kept looks', limits.simplify cs looks = .ok (kept, looks') →
        Pruned cs kept ∧ ∀ (limits' : Limits) again start stop,
          limits'.simplify kept start = .ok (again, stop) → again = kept := by
  constructor
  · intro intime
    obtain ⟨looks', returned⟩ := intime.simplify cs
    exact ⟨simplify cs, looks', returned⟩
  · intro kept looks' returned
    obtain rfl := Limits.simplify_eq_ok returned
    refine ⟨pruned_simplify cs, fun limits' again _ _ returned' => ?_⟩
    rw [Limits.simplify_eq_ok returned', simplify_simplify]

namespace Sample

/-- `A | !A`, `A | B | C`, `A | B`, `A`, `C | B`, `A`, `B | C`. -/
def chained : List Clause :=
  [⟨[a.pos, a.neg]⟩, ⟨[a.pos, b.pos, c.pos]⟩, ⟨[a.pos, b.pos]⟩, ⟨[a.pos]⟩, ⟨[c.pos, b.pos]⟩,
    ⟨[a.pos]⟩, ⟨[b.pos, c.pos]⟩]

/-- `A` and `C | B`. -/
def chainedKept : List Clause :=
  [⟨[a.pos]⟩, ⟨[c.pos, b.pos]⟩]

end Sample

open Cnf.Sample in
/-- `A | B | C` goes because of `A | B`, which goes because of `A`, and of two clauses with the same
literals the first one stays. -/
theorem simplify_prunes_chained :
    Limits.InTime {} 0 ∧ (∃ looks, Limits.simplify {} chained 0 = .ok (chainedKept, looks)) ∧
      Pruned chained chainedKept ∧
      (∃ looks looks', Limits.simplify {} chainedKept looks = .ok (chainedKept, looks')) ∧
      chainedKept.Pairwise fun c d => c.subsumes d = false ∧ d.subsumes c = false := by
  have intime : Limits.InTime {} 0 := fun _ _ => rfl
  obtain ⟨kept, looks, returned⟩ := (simplify_prunes {} chained 0).1 intime
  have left : kept = chainedKept := (Limits.simplify_eq_ok returned).trans (by decide)
  subst left
  obtain ⟨pruned, unchanged⟩ := (simplify_prunes {} chained 0).2 chainedKept looks returned
  obtain ⟨again, looks', returned'⟩ :=
    (simplify_prunes {} chainedKept looks).1 fun _ _ => rfl
  obtain rfl := unchanged {} again looks looks' returned'
  exact ⟨intime, ⟨looks, returned⟩, pruned, ⟨looks, looks', returned'⟩,
    pruned.independent (by decide)⟩

end ProductLine.Cnf
