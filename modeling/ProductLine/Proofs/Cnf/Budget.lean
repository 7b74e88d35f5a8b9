/- # Budgets and deadlines — whether there is an answer, and never which

A look at the clock and a check of a size either stop a conversion or let it
go on as it was.  Under a larger budget and without a deadline each of them
lets it go on more readily, so a conversion that comes to its end does so there
too, with the same clauses; and one that does not has been stopped for a reason
that its own limits give (`Limits.Allows`).  Both are said of one step and of a
composition, and `Limits.Parallel` carries them through the recursion.

How many clauses there are is another matter: sizes are checked before they are
cut down by simplification, at conjunctions and disjunctions alone.  A literal
passes unchecked, and so does the one clause that a disjunction starts from;
hence the bound by one where the budget is zero.
-/
import ProductLine.Engine.Failure
import ProductLine.Proofs.Cnf.Meaning

namespace ProductLine.Cnf

/-! ## Reasons to stop -/

/-- The limits give this reason to stop: their own budget, or a reading of their clock. -/
def Limits.Admits (limits : Limits) : Cutoff → Prop
  | .budget n => n = limits.maxClauses
  | .deadline => ∃ k, limits.clock k = true

/-- The first computation ends as the second one, or is cut off for a reason that the limits
give. -/
def Limits.Allows (limits : Limits) {α : Type} (x y : Timed α) : Prop :=
  ∀ looks, (∃ result, x looks = .ok result ∧ y looks = .ok result) ∨
    ∃ cutoff, x looks = .error cutoff ∧ limits.Admits cutoff

section Allows

variable {limits : Limits}

theorem Limits.Allows.bind {α β : Type} {x y : Timed α} {f g : α → Timed β}
    (h : limits.Allows x y) (next : ∀ a, limits.Allows (f a) (g a)) :
    limits.Allows (x >>= f) (y >>= g) := by
  intro looks
  rcases h looks with ⟨⟨a, between⟩, hx, hy⟩ | ⟨cutoff, hx, admits⟩
  · have hx' : (x >>= f) looks = f a between := by
      show (x looks >>= fun p => f p.1 p.2) = _
      rw [hx]
      rfl
    have hy' : (y >>= g) looks = g a between := by
      show (y looks >>= fun p => g p.1 p.2) = _
      rw [hy]
      rfl
    rw [hx', hy']
    exact next a between
  · refine .inr ⟨cutoff, ?_, admits⟩
    show (x looks >>= fun p => f p.1 p.2) = _
    rw [hx]
    rfl

/-- No step is stopped by a larger budget that was not stopped by a smaller one. -/
theorem Limits.parallel_raised {m : Nat} (h : limits.maxClauses ≤ m) :
    limits.Parallel { maxClauses := m } limits.Allows where
  pure a looks := .inl ⟨(a, looks), rfl, rfl⟩
  bind := .bind
  look looks := by
    unfold Limits.look
    split
    case isTrue reached => exact .inr ⟨.deadline, rfl, looks, reached⟩
    case isFalse => exact .inl ⟨((), looks + 1), rfl, rfl⟩
  checkSize size looks := by
    unfold Limits.checkSize
    split
    case isTrue => exact .inr ⟨.budget limits.maxClauses, rfl, rfl⟩
    case isFalse within =>
      have within' : ¬ size > m := by omega
      exact .inl ⟨((), looks), rfl, if_neg within'⟩

/-- A conversion is cut off for a reason that its limits give, or it returns the same under any
larger budget without a deadline. -/
theorem convert_raised {m : Nat} (h : limits.maxClauses ≤ m) (e : Expr) :
    (∃ cs, convert limits e = .ok cs ∧ convert { maxClauses := m } e = .ok cs) ∨
      ∃ cutoff, convert limits e = .error cutoff ∧ limits.Admits cutoff := by
  unfold convert
  dsimp only
  rcases (Limits.parallel_raised h).conversion e 0 with
    ⟨result, small, large⟩ | ⟨cutoff, cut, admits⟩
  · rw [small, large]
    exact .inl ⟨result.1, rfl, rfl⟩
  · rw [cut]
    exact .inr ⟨cutoff, rfl, admits⟩

end Allows

/-! ## How many clauses there are -/

section Size

variable {limits : Limits} {looks looks' : Nat}

theorem Limits.checkSize_eq_ok {size : Nat} {r : Unit}
    (h : limits.checkSize size looks = .ok (r, looks')) : size ≤ limits.maxClauses := by
  unfold Limits.checkSize at h
  split at h
  · cases h
  · omega

theorem length_simplify_le (cs : List Clause) : (simplify cs).length ≤ cs.length :=
  (simplify_sublist cs).length_le.trans (List.length_filter_le _ cs)

theorem length_product_le (cs ds : List Clause) :
    (product cs ds).length ≤ cs.length * ds.length := by
  induction cs with
  | nil => exact Nat.zero_le _
  | cons c cs ih =>
    have first : (withoutTautologies (ds.map c.merge)).length ≤ ds.length :=
      (List.length_filter_le _ _).trans (List.length_map _).le
    have step : product (c :: cs) ds = withoutTautologies (ds.map c.merge) ++ product cs ds :=
      List.flatMap_cons
    rw [step, List.length_append, List.length_cons, Nat.succ_mul]
    omega

theorem length_gather_le (ns : List Nnf) {sofar cs : List Clause}
    (h : gather limits sofar ns looks = .ok (cs, looks')) :
    cs.length ≤ max sofar.length limits.maxClauses := by
  induction ns generalizing sofar looks with
  | nil =>
    rw [gather] at h
    obtain ⟨rfl, -⟩ := Timed.pure_eq_ok_iff.mp h
    exact Nat.le_max_left _ _
  | cons n ns ih =>
    rw [gather] at h
    obtain ⟨ds, _, -, h⟩ := Timed.bind_eq_ok_iff.mp h
    obtain ⟨_, _, hcheck, h⟩ := Timed.bind_eq_ok_iff.mp h
    have within := Limits.checkSize_eq_ok hcheck
    have later := ih h
    omega

theorem length_distribute_le (ns : List Nnf) {sofar cs : List Clause}
    (h : distribute limits sofar ns looks = .ok (cs, looks')) :
    cs.length ≤ max sofar.length limits.maxClauses := by
  induction ns generalizing sofar looks with
  | nil =>
    rw [distribute] at h
    obtain ⟨rfl, -⟩ := Timed.pure_eq_ok_iff.mp h
    exact Nat.le_max_left _ _
  | cons n ns ih =>
    rw [distribute] at h
    obtain ⟨ds, _, -, h⟩ := Timed.bind_eq_ok_iff.mp h
    obtain ⟨_, _, hcheck, h⟩ := Timed.bind_eq_ok_iff.mp h
    obtain ⟨es, _, hsimplify, h⟩ := Timed.bind_eq_ok_iff.mp h
    have within := Limits.checkSize_eq_ok hcheck
    have simplified : es.length ≤ sofar.length * ds.length := by
      rw [Limits.simplify_eq_ok hsimplify]
      exact (length_simplify_le _).trans (length_product_le sofar ds)
    have later := ih h
    omega

theorem length_clauses_le (n : Nnf) {cs : List Clause}
    (h : clauses limits n looks = .ok (cs, looks')) : cs.length ≤ max 1 limits.maxClauses := by
  cases n with
  | literal l =>
    rw [clauses] at h
    obtain ⟨_, _, -, h⟩ := Timed.bind_eq_ok_iff.mp h
    obtain ⟨rfl, -⟩ := Timed.pure_eq_ok_iff.mp h
    exact Nat.le_max_left _ _
  | all items =>
    rw [clauses] at h
    obtain ⟨_, _, -, h⟩ := Timed.bind_eq_ok_iff.mp h
    obtain ⟨ds, _, hgather, hsimplify⟩ := Timed.bind_eq_ok_iff.mp h
    have gathered := length_gather_le items hgather
    rw [Limits.simplify_eq_ok hsimplify]
    have simplified := length_simplify_le ds
    rw [List.length_nil] at gathered
    omega
  | any items =>
    rw [clauses] at h
    obtain ⟨_, _, -, h⟩ := Timed.bind_eq_ok_iff.mp h
    exact length_distribute_le items h

/-- A conversion that returns has at most as many clauses as its budget, or one. -/
theorem length_convert_le {e : Expr} {cs : List Clause} (h : convert limits e = .ok cs) :
    cs.length ≤ max 1 limits.maxClauses := by
  obtain ⟨ds, _, _, hclauses, hsimplify⟩ := convert_eq_ok_iff.mp h
  rw [Limits.simplify_eq_ok hsimplify]
  exact (length_simplify_le ds).trans (length_clauses_le _ hclauses)

end Size

/-- Whatever the clock reads, a conversion fails with a timeout, for its own budget or because a
reading found the deadline reached; and if it returns, then its clauses are no more than its budget
admits, and every larger budget without a deadline gives the same ones in the same order. -/
theorem convert_limits (limits : Limits) (e : Expr) :
    (∀ failure, (convert limits e).mapError EngineFailure.ofCutoff = .error failure →
      ∃ cutoff, limits.Admits cutoff ∧ failure = .timeout cutoff.message) ∧
    ∀ cs, convert limits e = .ok cs →
      cs.length ≤ max 1 limits.maxClauses ∧
        ∀ m, limits.maxClauses ≤ m → convert { maxClauses := m, clock := .ample } e = .ok cs := by
  refine ⟨fun failure hfailure => ?_, fun cs hcs => ⟨length_convert_le hcs, fun m hm => ?_⟩⟩
  · rcases convert_raised (Nat.le_refl limits.maxClauses) e with
      ⟨cs, hcs, -⟩ | ⟨cutoff, cut, admits⟩
    · rw [hcs] at hfailure
      cases hfailure
    · rw [cut] at hfailure
      cases hfailure
      exact ⟨cutoff, admits, rfl⟩
  · rcases convert_raised hm e with ⟨ds, small, large⟩ | ⟨cutoff, cut, -⟩
    · obtain rfl := Except.ok.inj (hcs.symm.trans small)
      exact large
    · rw [cut] at hcs
      cases hcs

open Cnf.Sample in
/-- The example has three clauses and needs a budget of four, for the four products of its
disjunction, one of which is a tautology. -/
theorem convert_limits_branching :
    (∃ cs, convert { maxClauses := 4, clock := fun k => k = 1000 } branching = .ok cs ∧
      cs.length ≤ 4 ∧
        ∀ m, 4 ≤ m → convert { maxClauses := m, clock := .ample } branching = .ok cs) ∧
    (∃ cutoff, Limits.Admits { maxClauses := 3 } cutoff ∧
      EngineFailure.timeout "clause budget of 3 exceeded" = .timeout cutoff.message) ∧
    ∃ cutoff, Limits.Admits { clock := fun k => k = 5 } cutoff ∧
      EngineFailure.timeout "deadline reached during CNF conversion" = .timeout cutoff.message := by
  have returns : convert { maxClauses := 4, clock := fun k => k = 1000 } branching =
      .ok branchingClauses := by decide
  have tooMany : (convert { maxClauses := 3 } branching).mapError EngineFailure.ofCutoff =
      .error (.timeout "clause budget of 3 exceeded") := by decide
  have tooLate : (convert { clock := fun k => k = 5 } branching).mapError EngineFailure.ofCutoff =
      .error (.timeout "deadline reached during CNF conversion") := by decide
  refine ⟨⟨_, returns, ?returned⟩, ?budget, ?deadline⟩
  case returned => exact (convert_limits _ branching).2 _ returns
  case budget => exact (convert_limits _ branching).1 _ tooMany
  case deadline => exact (convert_limits _ branching).1 _ tooLate

end ProductLine.Cnf
