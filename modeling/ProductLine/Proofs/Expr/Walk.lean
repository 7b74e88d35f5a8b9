/- # The walk as a loop — a stack of trees and a set of what has been seen

`collect` finds the variables of a list of trees by recursion.  Run as a loop it
keeps three things: the trees still to be visited, as a stack with the next one
on top, the features found so far, and these features once more as a set, in
which they are looked up.  A round takes the tree on top away and, unless it is
a variable, puts its operands in its place, the left one on top.

Two things hold of a round, whatever stands below on the stack.  The set and the
list keep the same members, and what is going to be found in the end stays the
same.  The stack loses one node, the root of the tree on top, so the loop ends
after as many rounds as the expression has nodes (`exists_rounds`).
-/
import ProductLine.Proofs.Expr.Vars

namespace ProductLine.Expr

/-- A state of the loop. -/
structure Walk where
  seen : FeatureSet
  found : List Feature
  todo : List Expr

namespace Walk

/-- Nothing is found yet, and the whole expression is to be visited. -/
def start (e : Expr) : Walk := ⟨∅, [], [e]⟩

/-- One round of the loop, which ends where no tree is left. -/
def round (w : Walk) : Option Walk :=
  match w.todo with
  | [] => none
  | var f :: rest =>
    some (if f ∈ w.seen then { w with todo := rest }
      else ⟨w.seen.insert f, w.found ++ [f], rest⟩)
  | not a :: rest => some { w with todo := a :: rest }
  | and a b :: rest | or a b :: rest => some { w with todo := a :: b :: rest }

/-- That many rounds, if the loop does not end before. -/
def rounds : Nat → Walk → Option Walk
  | 0, w => some w
  | n + 1, w => w.round.bind (rounds n)

/-- The set has the features that have been found. -/
def Faithful (w : Walk) : Prop :=
  ∀ f, f ∈ w.seen ↔ f ∈ w.found

variable {w w' : Walk}

theorem faithful_start (e : Expr) : (start e).Faithful :=
  fun f => iff_of_false (FeatureSet.notMem_empty f) List.not_mem_nil

theorem round_eq_none_iff : w.round = none ↔ w.todo = [] := by
  unfold round
  split <;> simp_all

/-- What one round keeps, and what it takes away. -/
theorem Faithful.round (h : w.Faithful) (hround : w.round = some w') :
    w'.Faithful ∧ collect w'.found w'.todo = collect w.found w.todo ∧
      totalSize w'.todo + 1 = totalSize w.todo := by
  obtain ⟨seen, found, todo⟩ := w
  match todo, hround with
  | var f :: rest, hround =>
    by_cases known : f ∈ seen
    · obtain rfl : _ = w' := by simpa [Walk.round, known] using hround
      have listed : f ∈ found := (h f).mp known
      exact ⟨h, by simp [collect, listed], by simp [totalSize, size, Nat.add_comm]⟩
    · obtain rfl : _ = w' := by simpa [Walk.round, known] using hround
      have unlisted : f ∉ found := fun listed => known ((h f).mpr listed)
      refine ⟨fun g => ?_, by simp [collect, unlisted], by simp [totalSize, size, Nat.add_comm]⟩
      rw [FeatureSet.mem_insert_iff, List.mem_append, List.mem_singleton, or_comm]
      exact or_congr_left (h g)
  | not a :: rest, hround =>
    obtain rfl := Option.some.inj hround
    exact ⟨h, by simp [collect], by simp [totalSize, size]; omega⟩
  | and a b :: rest, hround | or a b :: rest, hround =>
    obtain rfl := Option.some.inj hround
    exact ⟨h, by simp [collect], by simp [totalSize, size]; omega⟩

/-- The loop ends after as many rounds as there are nodes on the stack, with everything found that
`collect` finds. -/
theorem Faithful.exists_rounds (h : w.Faithful) : ∃ w', rounds (totalSize w.todo) w = some w' ∧
    w'.round = none ∧ w'.found = collect w.found w.todo := by
  generalize hn : totalSize w.todo = n
  induction n generalizing w with
  | zero =>
    have ended : w.round = none := by
      cases hround : w.round with
      | none => rfl
      | some w' =>
        have loses := (h.round hround).2.2
        omega
    refine ⟨w, rfl, ended, ?_⟩
    rw [round_eq_none_iff.mp ended, collect]
  | succ n ih =>
    cases hround : w.round with
    | none =>
      rw [round_eq_none_iff.mp hround] at hn
      cases hn
    | some next =>
      obtain ⟨faithful, finds, loses⟩ := h.round hround
      obtain ⟨w', hrounds, ended, found⟩ := ih faithful (by omega)
      refine ⟨w', ?_, ended, found.trans finds⟩
      rw [rounds, hround]
      exact hrounds

/-- The walk over an expression ends after as many rounds as the expression has nodes and has found
its variables. -/
theorem exists_rounds_start (e : Expr) : ∃ w, rounds e.size (start e) = some w ∧
    w.round = none ∧ w.found = e.vars := by
  obtain ⟨w, hrounds, ended, found⟩ := (faithful_start e).exists_rounds
  exact ⟨w, hrounds, ended, found⟩

end Walk

end ProductLine.Expr
