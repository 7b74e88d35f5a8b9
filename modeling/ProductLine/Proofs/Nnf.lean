/- # The shape of negation normal forms — flat, and no connective without need

A form is flat if no conjunction is an item of a conjunction, no disjunction
an item of a disjunction, and every connective has at least two items.  The
normal forms of expressions are flat, in both polarities.  What a conversion
needs of this is that no disjunction is empty.

The literals of the normal form are the occurrences of variables in the
expression, in their order, each with the polarity of the negations around
it: flattening moves no item and drops none.
-/
import Mathlib.Data.Nat.Bits
import ProductLine.Nnf

namespace ProductLine

namespace Nnf

/-- Connectives have two items or more, none of which is the same connective again. -/
inductive Flat : Nnf → Prop where
  | literal (l : Literal) : Flat (.literal l)
  | all {items : List Nnf} : 2 ≤ items.length → (∀ n ∈ items, n.Flat) →
      (∀ n ∈ items, ∀ ms, n ≠ .all ms) → Flat (.all items)
  | any {items : List Nnf} : 2 ≤ items.length → (∀ n ∈ items, n.Flat) →
      (∀ n ∈ items, ∀ ms, n ≠ .any ms) → Flat (.any items)

theorem Flat.conjuncts {n : Nnf} (h : n.Flat) :
    n.conjuncts ≠ [] ∧ ∀ m ∈ n.conjuncts, m.Flat ∧ ∀ ms, m ≠ .all ms := by
  cases h with
  | literal => simp [Nnf.conjuncts, Flat.literal]
  | all long flat apart =>
    exact ⟨List.ne_nil_of_length_pos (Nat.zero_lt_of_lt long), fun m hm => ⟨flat m hm, apart m hm⟩⟩
  | any long flat apart => simp [Nnf.conjuncts, Flat.any long flat apart]

theorem Flat.disjuncts {n : Nnf} (h : n.Flat) :
    n.disjuncts ≠ [] ∧ ∀ m ∈ n.disjuncts, m.Flat ∧ ∀ ms, m ≠ .any ms := by
  cases h with
  | literal => simp [Nnf.disjuncts, Flat.literal]
  | all long flat apart => simp [Nnf.disjuncts, Flat.all long flat apart]
  | any long flat apart =>
    exact ⟨List.ne_nil_of_length_pos (Nat.zero_lt_of_lt long), fun m hm => ⟨flat m hm, apart m hm⟩⟩

theorem two_le_length_append {as bs : List Nnf} (ha : as ≠ []) (hb : bs ≠ []) :
    2 ≤ (as ++ bs).length := by
  have := List.length_pos_iff.2 ha
  have := List.length_pos_iff.2 hb
  rw [List.length_append]
  omega

theorem Flat.conj {a b : Nnf} (ha : a.Flat) (hb : b.Flat) : (a.conj b).Flat := by
  have items : ∀ m ∈ a.conjuncts ++ b.conjuncts, m.Flat ∧ ∀ ms, m ≠ .all ms :=
    List.forall_mem_append.2 ⟨ha.conjuncts.2, hb.conjuncts.2⟩
  exact .all (two_le_length_append ha.conjuncts.1 hb.conjuncts.1)
    (fun m hm => (items m hm).1) (fun m hm => (items m hm).2)

theorem Flat.disj {a b : Nnf} (ha : a.Flat) (hb : b.Flat) : (a.disj b).Flat := by
  have items : ∀ m ∈ a.disjuncts ++ b.disjuncts, m.Flat ∧ ∀ ms, m ≠ .any ms :=
    List.forall_mem_append.2 ⟨ha.disjuncts.2, hb.disjuncts.2⟩
  exact .any (two_le_length_append ha.disjuncts.1 hb.disjuncts.1)
    (fun m hm => (items m hm).1) (fun m hm => (items m hm).2)

end Nnf

/-- The normal form of an expression is flat, in both polarities. -/
theorem Expr.flat_nnf (negated : Bool) (e : Expr) : (e.nnf negated).Flat := by
  induction e generalizing negated with
  | var f => exact .literal _
  | not a ih => exact ih (!negated)
  | and a b iha ihb =>
    rw [nnf]
    split
    · exact (iha negated).disj (ihb negated)
    · exact (iha negated).conj (ihb negated)
  | or a b iha ihb =>
    rw [nnf]
    split
    · exact (iha negated).conj (ihb negated)
    · exact (iha negated).disj (ihb negated)

/-! ## Literals -/

namespace Nnf

mutual

/-- The literals of the form, from left to right. -/
def literals : Nnf → List Literal
  | literal l => [l]
  | all items | any items => literalsOfEach items

/-- The literals of all items. -/
def literalsOfEach : List Nnf → List Literal
  | [] => []
  | n :: ns => n.literals ++ literalsOfEach ns

end

theorem literalsOfEach_append (ms ns : List Nnf) :
    literalsOfEach (ms ++ ns) = literalsOfEach ms ++ literalsOfEach ns := by
  induction ms with
  | nil => rfl
  | cons m ms ih => rw [List.cons_append, literalsOfEach, ih, literalsOfEach, List.append_assoc]

theorem literalsOfEach_conjuncts (n : Nnf) : literalsOfEach n.conjuncts = n.literals := by
  cases n <;> simp only [conjuncts, literalsOfEach, literals, List.append_nil]

theorem literalsOfEach_disjuncts (n : Nnf) : literalsOfEach n.disjuncts = n.literals := by
  cases n <;> simp only [disjuncts, literalsOfEach, literals, List.append_nil]

@[simp] theorem literals_conj (a b : Nnf) : (a.conj b).literals = a.literals ++ b.literals := by
  rw [conj, literals, literalsOfEach_append, literalsOfEach_conjuncts, literalsOfEach_conjuncts]

@[simp] theorem literals_disj (a b : Nnf) : (a.disj b).literals = a.literals ++ b.literals := by
  rw [disj, literals, literalsOfEach_append, literalsOfEach_disjuncts, literalsOfEach_disjuncts]

end Nnf

namespace Expr

/-- The occurrences of variables from left to right, where `negated` says whether the expression
stands under an odd number of negations. -/
def occurrences (negated : Bool) : Expr → List Literal
  | var f => [⟨f, negated⟩]
  | not a => a.occurrences (!negated)
  | and a b | or a b => a.occurrences negated ++ b.occurrences negated

theorem map_feature_occurrences (negated : Bool) (e : Expr) :
    (e.occurrences negated).map Literal.feature = e.leaves := by
  induction e generalizing negated with
  | var f => rfl
  | not a ih => exact ih (!negated)
  | and a b iha ihb | or a b iha ihb =>
    rw [occurrences, List.map_append, iha, ihb, leaves]

/-- The literals of the normal form are the occurrences of variables. -/
theorem literals_nnf (negated : Bool) (e : Expr) :
    (e.nnf negated).literals = e.occurrences negated := by
  induction e generalizing negated with
  | var f => rfl
  | not a ih => exact ih (!negated)
  | and a b iha ihb | or a b iha ihb =>
    rw [nnf]
    split <;> simp [iha, ihb, occurrences]

end Expr

/-! ## Polarity by counting

`occurrences` turns the polarity over at each negation, as the normal form does.
Which polarity comes of it can be said without going along: the negations around
a variable are counted, and their number is odd or even.  A negated normal form
has one more around all of them. -/

/-- The literal of the feature under that many negations, a negative one if their number is odd. -/
def Feature.under (f : Feature) (negations : Nat) : Literal :=
  ⟨f, negations.bodd⟩

namespace Expr

/-- The variables from left to right, each with the number of negations around it, where `around`
of these stand around the expression. -/
def negations (around : Nat) : Expr → List (Feature × Nat)
  | var f => [(f, around)]
  | not a => a.negations (around + 1)
  | and a b | or a b => a.negations around ++ b.negations around

theorem map_fst_negations (around : Nat) (e : Expr) : (e.negations around).map Prod.fst = e.leaves := by
  induction e generalizing around with
  | var f => rfl
  | not a ih => exact ih (around + 1)
  | and a b iha ihb | or a b iha ihb => rw [negations, List.map_append, iha, ihb, leaves]

theorem occurrences_eq_map_negations (around : Nat) (e : Expr) :
    e.occurrences around.bodd = (e.negations around).map fun p => p.1.under p.2 := by
  induction e generalizing around with
  | var f => rfl
  | not a ih => rw [occurrences, ← Nat.bodd_succ, ih, negations]
  | and a b iha ihb | or a b iha ihb =>
    rw [occurrences, iha, ihb, negations, List.map_append]

/-- The normal form of an expression, or of its negation, has that value under every assignment.  It
is flat, and its literals are the variables of the expression, in their order, each in the polarity
of the number of negations around it. -/
theorem eval_flat_literals_nnf (negated : Bool) (e : Expr) :
    (∀ σ, (e.nnf negated).eval σ = if negated then !e.eval σ else e.eval σ) ∧
      (e.nnf negated).Flat ∧
      (e.negations negated.toNat).map Prod.fst = e.leaves ∧
      (e.nnf negated).literals = (e.negations negated.toNat).map fun p => p.1.under p.2 := by
  refine ⟨fun σ => ?_, e.flat_nnf negated, e.map_fst_negations _, ?_⟩
  · rw [eval_nnf]
    cases negated <;> simp
  · rw [literals_nnf, ← occurrences_eq_map_negations]
    cases negated <;> rfl

end Expr

end ProductLine
