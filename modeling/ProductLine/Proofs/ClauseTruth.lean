/- # Truth of clauses — what the tests on literals say of all assignments

Both tests of a clause look at its literals alone, and both are exact.  A
clause with a literal and the opposite of it is true everywhere.  Any other one
is false under its `falsifier`, the assignment that makes each of its literals
false.

For subsumption an assignment has to be found that makes a literal true and a
clause false that lacks it.  Changing the falsifier at one feature would do, but
the clause may have that feature in the other polarity.  The falsifier of a
longer clause does it at once: add the opposite of the literal, and what comes
of it is no tautology either (`exists_separating`).

So a clause implies another one exactly if it subsumes it or the other one is a
tautology, which everything implies (`entails_iff`).
-/
import ProductLine.Clause

namespace ProductLine

namespace Literal

theorem negate_ne (l : Literal) : l.negate ≠ l := by
  intro same
  have flipped : (!l.negated) = l.negated := congrArg Literal.negated same
  simp at flipped

theorem eq_of_negate_eq {k l : Literal} (h : k.negate = l.negate) : k = l := by
  rw [← negate_negate k, h, negate_negate]

theorem eval_or_eval_negate (σ : Assignment) (l : Literal) :
    l.eval σ = true ∨ l.negate.eval σ = true := by
  rw [eval_negate, Bool.not_eq_true']
  exact Bool.eq_false_or_eq_true (l.eval σ)

end Literal

namespace Clause

variable {σ : Assignment} {c d : Clause} {l : Literal}

theorem eval_cons (σ : Assignment) (l : Literal) (ls : List Literal) :
    eval σ ⟨l :: ls⟩ = (l.eval σ || eval σ ⟨ls⟩) :=
  List.any_cons

theorem evalAll_eq_true_iff {cs : List Clause} :
    evalAll σ cs = true ↔ ∀ c ∈ cs, c.eval σ = true :=
  List.all_eq_true

/-! ## Clauses that are true -/

theorem eval_of_isTautology (h : c.isTautology = true) (σ : Assignment) : c.eval σ = true := by
  obtain ⟨l, hl, hnegate⟩ := isTautology_iff.mp h
  rcases l.eval_or_eval_negate σ with value | value
  · exact eval_eq_true_iff.mpr ⟨l, hl, value⟩
  · exact eval_eq_true_iff.mpr ⟨l.negate, hnegate, value⟩

theorem eval_of_subsumes (h : c.subsumes d = true) (hc : c.eval σ = true) : d.eval σ = true := by
  obtain ⟨l, hl, value⟩ := eval_eq_true_iff.mp hc
  exact eval_eq_true_iff.mpr ⟨l, subsumes_iff.mp h l hl, value⟩

/-! ## Clauses that are false -/

/-- The assignment that selects the features that the clause negates, and no others. -/
def falsifier (c : Clause) : Assignment :=
  fun f => c.literals.contains f.neg

/-- A clause that is no tautology can be made false. -/
theorem eval_falsifier {c : Clause} (h : c.isTautology = false) : c.eval c.falsifier = false := by
  rw [Bool.eq_false_iff, Ne, eval_eq_true_iff]
  rintro ⟨⟨f, negated⟩, hl, htrue⟩
  cases negated with
  | true =>
    have selected : c.falsifier f = true := List.contains_iff_mem.mpr hl
    simp [Literal.eval, Literal.value, selected] at htrue
  | false =>
    have opposite : f.neg ∉ c.literals := isTautology_eq_false_iff.mp h ⟨f, false⟩ hl
    have deselected : c.falsifier f = false := by simpa [falsifier] using opposite
    simp [Literal.eval, Literal.value, deselected] at htrue

/-- The opposite of a literal that the clause lacks makes it no tautology. -/
theorem isTautology_cons_negate (h : c.isTautology = false) (hl : l ∉ c.literals) :
    isTautology ⟨l.negate :: c.literals⟩ = false := by
  refine isTautology_eq_false_iff.mpr fun k hk hnegate => ?_
  rcases List.mem_cons.mp hk with rfl | hk
  · rw [Literal.negate_negate] at hnegate
    rcases List.mem_cons.mp hnegate with same | hmem
    · exact l.negate_ne same.symm
    · exact hl hmem
  · rcases List.mem_cons.mp hnegate with same | hmem
    · exact hl (Literal.eq_of_negate_eq same ▸ hk)
    · exact isTautology_eq_false_iff.mp h k hk hmem

/-- A literal that the clause lacks can be true where the clause is false. -/
theorem exists_separating (h : c.isTautology = false) (hl : l ∉ c.literals) :
    ∃ σ, l.eval σ = true ∧ c.eval σ = false := by
  have fails := eval_falsifier (isTautology_cons_negate h hl)
  rw [eval_cons, Bool.or_eq_false_iff, Literal.eval_negate, Bool.not_eq_false'] at fails
  exact ⟨_, fails⟩

/-! ## The tests are exact -/

theorem isTautology_iff_forall_eval : c.isTautology = true ↔ ∀ σ, c.eval σ = true := by
  constructor
  · exact eval_of_isTautology
  · intro valid
    cases proper : c.isTautology with
    | true => rfl
    | false => exact (eval_falsifier proper).symm.trans (valid c.falsifier)

/-- What a clause implies are the clauses that it subsumes, and the tautologies. -/
theorem entails_iff : (∀ σ, c.eval σ = true → d.eval σ = true) ↔
    c.subsumes d = true ∨ d.isTautology = true := by
  constructor
  · intro entails
    cases proper : d.isTautology with
    | true => exact .inr rfl
    | false =>
      refine .inl (subsumes_iff.mpr fun l hl => Decidable.byContradiction fun absent => ?_)
      obtain ⟨σ, value, fails⟩ := exists_separating proper absent
      have holds := entails σ (eval_eq_true_iff.mpr ⟨l, hl, value⟩)
      exact Bool.false_ne_true (fails.symm.trans holds)
  · rintro (h | h) σ hc
    · exact eval_of_subsumes h hc
    · exact eval_of_isTautology h σ

/-- A clause is true under every assignment exactly if it passes the test for tautologies, and it
implies one that is no tautology exactly if it subsumes that one. -/
theorem isTautology_and_subsumes_iff_eval (c : Clause) :
    (c.isTautology = true ↔ ∀ σ, c.eval σ = true) ∧
      ∀ d : Clause, d.isTautology = false →
        (c.subsumes d = true ↔ ∀ σ, c.eval σ = true → d.eval σ = true) := by
  refine ⟨isTautology_iff_forall_eval, fun d proper => ?_⟩
  rw [entails_iff, proper]
  simp only [Bool.false_eq_true, or_false]

namespace Sample

def x : Feature := ⟨"X", by decide⟩
def y : Feature := ⟨"Y", by decide⟩

/-- `X | Y | X`. -/
def repeating : Clause := ⟨[x.pos, y.pos, x.pos]⟩

/-- `!Y | X`: the same features, one of them in the other polarity. -/
def opposing : Clause := ⟨[y.neg, x.pos]⟩

end Sample

open Clause.Sample in
/-- A clause with a repeated literal can be false; it does not imply one with an opposite literal,
and is implied by the empty one. -/
theorem isTautology_and_subsumes_iff_eval_repeating :
    (repeating.isTautology = false ∧ ∃ σ, repeating.eval σ ≠ true) ∧
    (opposing.isTautology = false ∧ repeating.subsumes opposing = false ∧
      ∃ σ, repeating.eval σ = true ∧ opposing.eval σ ≠ true) ∧
    (subsumes ⟨[]⟩ repeating = true ∧ ∀ σ, eval σ ⟨[]⟩ = true → repeating.eval σ = true) := by
  have proper : repeating.isTautology = false := by decide
  have proper' : opposing.isTautology = false := by decide
  have apart : repeating.subsumes opposing = false := by decide
  have below : subsumes ⟨[]⟩ repeating = true := rfl
  refine ⟨⟨proper, ?_⟩, ⟨proper', apart, ?_⟩, below,
    ((isTautology_and_subsumes_iff_eval ⟨[]⟩).2 repeating proper).mp below⟩
  · have invalid := (isTautology_and_subsumes_iff_eval repeating).1
    rw [proper] at invalid
    simpa using invalid
  · have unimplied := (isTautology_and_subsumes_iff_eval repeating).2 opposing proper'
    rw [apart] at unimplied
    simpa using unimplied

end Clause

end ProductLine
