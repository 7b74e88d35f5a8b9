/- # Conversion without limits — what a conversion returns, if it returns

The conversion is written with a budget and a clock in every step.  Neither
is ever consulted about *which* clauses to return: each look and each check
either stops the conversion or lets it go on as it was.  So there is one
function of the expression alone, `conversion`, and whatever the limits are, a
conversion that is not cut off returns its value (`eq_of_convert_eq_ok`).

The clock does not even show in how a conversion fails: one that is not cut off
at its deadline goes as it does with a deadline that is never reached
(`convert_eq_or`).

What is said about results of `convert` is therefore proved of `conversion`,
where no state is carried along.
-/
import ProductLine.Cnf.Convert

namespace ProductLine.Cnf

mutual

/-- The clauses of a form, by the steps of `clauses` without their limits. -/
def clausesOf : Nnf → List Clause
  | .literal l => [⟨[l]⟩]
  | .all items => simplify (gathered items)
  | .any items => distributed [⟨[]⟩] items

/-- The clauses of all items. -/
def gathered : List Nnf → List Clause
  | [] => []
  | n :: ns => clausesOf n ++ gathered ns

/-- The simplified product of the clauses so far and those of each item. -/
def distributed (sofar : List Clause) : List Nnf → List Clause
  | [] => sofar
  | n :: ns => distributed (simplify (product sofar (clausesOf n))) ns

end

/-- The clauses of an expression. -/
def conversion (e : Expr) : List Clause :=
  simplify (clausesOf (e.nnf false))

/-! ## One lemma for each step

A step that ends at all has a value; a sequence of steps ends if each of them
does. -/

section Steps

variable {limits : Limits} {looks looks' : Nat}

theorem Timed.bind_eq_ok_iff {α β : Type} {step : Timed α} {next : α → Timed β} {b : β} :
    (step >>= next) looks = .ok (b, looks') ↔
      ∃ a between, step looks = .ok (a, between) ∧ next a between = .ok (b, looks') := by
  show (step looks >>= fun p => next p.1 p.2) = _ ↔ _
  cases step looks with
  | error cutoff => simp [bind, Except.bind]
  | ok p =>
    obtain ⟨a, between⟩ := p
    constructor
    · intro h
      exact ⟨a, between, rfl, h⟩
    · rintro ⟨_, _, heq, h⟩
      cases heq
      exact h

theorem Timed.pure_eq_ok_iff {α : Type} {a b : α} :
    (pure a : Timed α) looks = .ok (b, looks') ↔ a = b ∧ looks = looks' := by
  show Except.ok (a, looks) = _ ↔ _
  simp

theorem Limits.simplify_eq_ok {cs ds : List Clause}
    (h : limits.simplify cs looks = .ok (ds, looks')) : ds = Cnf.simplify cs := by
  obtain ⟨_, _, -, h⟩ := Timed.bind_eq_ok_iff.mp h
  exact (Timed.pure_eq_ok_iff.mp h).1.symm

/-- The deadline is not reached at this look or a later one. -/
def Limits.InTime (limits : Limits) (looks : Nat) : Prop :=
  ∀ k, looks ≤ k → limits.clock k = false

theorem Limits.InTime.succ (h : limits.InTime looks) : limits.InTime (looks + 1) :=
  fun k hk => h k (Nat.le_of_succ_le hk)

theorem Limits.InTime.look (h : limits.InTime looks) : limits.look looks = .ok ((), looks + 1) := by
  simp [Limits.look, h looks (Nat.le_refl looks)]

theorem Limits.InTime.lookTimes (h : limits.InTime looks) (n : Nat) :
    limits.lookTimes n looks = .ok ((), looks + n) := by
  induction n generalizing looks with
  | zero => rfl
  | succ n ih =>
    rw [Limits.lookTimes, Timed.bind_eq_ok_iff]
    refine ⟨(), looks + 1, h.look, ?_⟩
    rw [ih h.succ, Nat.succ_add_eq_add_succ]

/-- A simplification in time returns. -/
theorem Limits.InTime.simplify (h : limits.InTime looks) (cs : List Clause) :
    ∃ looks', limits.simplify cs looks = .ok (Cnf.simplify cs, looks') :=
  ⟨_, Timed.bind_eq_ok_iff.mpr ⟨(), _, h.lookTimes _, rfl⟩⟩

end Steps

/-! ## The whole conversion -/

mutual

theorem clauses_eq_ok {limits : Limits} :
    ∀ (n : Nnf) {cs : List Clause} {looks looks' : Nat},
      clauses limits n looks = .ok (cs, looks') → cs = clausesOf n
  | .literal l, cs, _, _, h => by
      rw [clauses] at h
      obtain ⟨_, _, -, h⟩ := Timed.bind_eq_ok_iff.mp h
      exact (Timed.pure_eq_ok_iff.mp h).1.symm
  | .all items, cs, _, _, h => by
      rw [clauses] at h
      obtain ⟨_, _, -, h⟩ := Timed.bind_eq_ok_iff.mp h
      obtain ⟨ds, _, hgather, hsimplify⟩ := Timed.bind_eq_ok_iff.mp h
      have hds : ds = gathered items := gather_eq_ok items hgather
      rw [clausesOf, ← hds]
      exact Limits.simplify_eq_ok hsimplify
  | .any items, cs, _, _, h => by
      rw [clauses] at h
      obtain ⟨_, _, -, h⟩ := Timed.bind_eq_ok_iff.mp h
      rw [clausesOf]
      exact distribute_eq_ok items h

theorem gather_eq_ok {limits : Limits} :
    ∀ (ns : List Nnf) {sofar cs : List Clause} {looks looks' : Nat},
      gather limits sofar ns looks = .ok (cs, looks') → cs = sofar ++ gathered ns
  | [], sofar, cs, _, _, h => by
      rw [gather] at h
      rw [gathered, List.append_nil]
      exact (Timed.pure_eq_ok_iff.mp h).1.symm
  | n :: ns, sofar, cs, _, _, h => by
      rw [gather] at h
      obtain ⟨ds, _, hitem, h⟩ := Timed.bind_eq_ok_iff.mp h
      obtain ⟨_, _, -, h⟩ := Timed.bind_eq_ok_iff.mp h
      rw [gathered, ← clauses_eq_ok n hitem, ← List.append_assoc]
      exact gather_eq_ok ns h

theorem distribute_eq_ok {limits : Limits} :
    ∀ (ns : List Nnf) {sofar cs : List Clause} {looks looks' : Nat},
      distribute limits sofar ns looks = .ok (cs, looks') → cs = distributed sofar ns
  | [], sofar, cs, _, _, h => by
      rw [distribute] at h
      rw [distributed]
      exact (Timed.pure_eq_ok_iff.mp h).1.symm
  | n :: ns, sofar, cs, _, _, h => by
      rw [distribute] at h
      obtain ⟨ds, _, hitem, h⟩ := Timed.bind_eq_ok_iff.mp h
      obtain ⟨_, _, -, h⟩ := Timed.bind_eq_ok_iff.mp h
      obtain ⟨es, _, hsimplify, h⟩ := Timed.bind_eq_ok_iff.mp h
      rw [distributed, ← clauses_eq_ok n hitem, ← Limits.simplify_eq_ok hsimplify]
      exact distribute_eq_ok ns h

end

/-- A conversion returns if its two steps come to an end one after the other. -/
theorem convert_eq_ok_iff {limits : Limits} {e : Expr} {cs : List Clause} :
    convert limits e = .ok cs ↔ ∃ ds looks looks',
      clauses limits (e.nnf false) 0 = .ok (ds, looks) ∧
        limits.simplify ds looks = .ok (cs, looks') := by
  unfold convert
  dsimp only
  constructor
  · intro h
    cases hsteps : (clauses limits (e.nnf false) >>= limits.simplify) 0 with
    | error cutoff =>
        rw [hsteps] at h
        cases h
    | ok result =>
        obtain ⟨es, looks'⟩ := result
        rw [hsteps] at h
        cases h
        obtain ⟨ds, looks, hclauses, hsimplify⟩ := Timed.bind_eq_ok_iff.mp hsteps
        exact ⟨ds, looks, looks', hclauses, hsimplify⟩
  · rintro ⟨ds, looks, looks', hclauses, hsimplify⟩
    have hsteps := Timed.bind_eq_ok_iff.mpr ⟨ds, looks, hclauses, hsimplify⟩
    rw [hsteps]
    rfl

/-- A conversion that is not cut off returns the clauses of its expression, whatever its limits. -/
theorem eq_of_convert_eq_ok {limits : Limits} {e : Expr} {cs : List Clause}
    (h : convert limits e = .ok cs) : cs = conversion e := by
  obtain ⟨ds, _, _, hclauses, hsimplify⟩ := convert_eq_ok_iff.mp h
  rw [conversion, ← clauses_eq_ok _ hclauses]
  exact Limits.simplify_eq_ok hsimplify

/-! ## Two conversions side by side

All that a conversion does with its limits is to look at the clock and to check
a size.  A relation of computations that passes through both and through
composition holds, therefore, of the whole conversions under two limits. -/

/-- The relation holds of what is done under the first limits and what is done under the second
ones in one step, and passes from the steps to their composition. -/
structure Limits.Parallel (limits limits' : Limits)
    (related : ∀ {α : Type}, Timed α → Timed α → Prop) : Prop where
  pure : ∀ {α : Type} (a : α), related (pure a) (pure a)
  bind : ∀ {α β : Type} {x y : Timed α} {f g : α → Timed β},
    related x y → (∀ a, related (f a) (g a)) → related (x >>= f) (y >>= g)
  look : related limits.look limits'.look
  checkSize : ∀ size, related (limits.checkSize size) (limits'.checkSize size)

namespace Limits.Parallel

variable {limits limits' : Limits} {related : ∀ {α : Type}, Timed α → Timed α → Prop}

theorem lookTimes (h : limits.Parallel limits' related) (n : Nat) :
    related (limits.lookTimes n) (limits'.lookTimes n) := by
  induction n with
  | zero => exact h.pure ()
  | succ n ih => exact h.bind h.look fun _ => ih

theorem simplify (h : limits.Parallel limits' related) (cs : List Clause) :
    related (limits.simplify cs) (limits'.simplify cs) :=
  h.bind (h.lookTimes _) fun _ => h.pure _

mutual

theorem clauses (h : limits.Parallel limits' related) :
    ∀ n : Nnf, related (Cnf.clauses limits n) (Cnf.clauses limits' n)
  | .literal l => by
      rw [Cnf.clauses, Cnf.clauses]
      exact h.bind h.look fun _ => h.pure _
  | .all items => by
      rw [Cnf.clauses, Cnf.clauses]
      exact h.bind h.look fun _ => h.bind (h.gather items []) h.simplify
  | .any items => by
      rw [Cnf.clauses, Cnf.clauses]
      exact h.bind h.look fun _ => h.distribute items [⟨[]⟩]

theorem gather (h : limits.Parallel limits' related) : ∀ (ns : List Nnf) (sofar : List Clause),
    related (Cnf.gather limits sofar ns) (Cnf.gather limits' sofar ns)
  | [], sofar => by
      rw [Cnf.gather, Cnf.gather]
      exact h.pure sofar
  | n :: ns, sofar => by
      rw [Cnf.gather, Cnf.gather]
      refine h.bind (h.clauses n) fun cs => ?_
      exact h.bind (h.checkSize _) fun _ => h.gather ns _

theorem distribute (h : limits.Parallel limits' related) :
    ∀ (ns : List Nnf) (sofar : List Clause),
      related (Cnf.distribute limits sofar ns) (Cnf.distribute limits' sofar ns)
  | [], sofar => by
      rw [Cnf.distribute, Cnf.distribute]
      exact h.pure sofar
  | n :: ns, sofar => by
      rw [Cnf.distribute, Cnf.distribute]
      refine h.bind (h.clauses n) fun cs => ?_
      refine h.bind (h.checkSize _) fun _ => ?_
      exact h.bind (h.simplify _) fun ds => h.distribute ns ds

end

/-- The relation holds of all steps of a conversion together. -/
theorem conversion (h : limits.Parallel limits' related) (e : Expr) :
    related (Cnf.clauses limits (e.nnf false) >>= limits.simplify)
      (Cnf.clauses limits' (e.nnf false) >>= limits'.simplify) :=
  h.bind (h.clauses _) h.simplify

end Limits.Parallel

/-! ## Deadlines that are not reached -/

/-- The first computation goes as the second one, unless it is cut off at its deadline. -/
def Timed.Follows {α : Type} (x y : Timed α) : Prop :=
  ∀ looks, x looks = .error .deadline ∨ x looks = y looks

section Follows

variable (limits : Limits)

theorem Timed.Follows.bind {α β : Type} {x y : Timed α} {f g : α → Timed β} (h : x.Follows y)
    (next : ∀ a, (f a).Follows (g a)) : (x >>= f).Follows (y >>= g) := by
  intro looks
  show (x looks >>= fun p => f p.1 p.2) = _ ∨
    (x looks >>= fun p => f p.1 p.2) = (y looks >>= fun p => g p.1 p.2)
  rcases h looks with cut | same
  · rw [cut]
    exact .inl rfl
  · rw [same]
    cases y looks with
    | error => exact .inr rfl
    | ok p => exact next p.1 p.2

/-- The same budget, and a deadline that is never reached. -/
def Limits.unhurried (limits : Limits) : Limits :=
  { limits with clock := .ample }

theorem Limits.parallel_unhurried : limits.Parallel limits.unhurried Timed.Follows where
  pure _ _ := .inr rfl
  bind := .bind
  look looks := by
    unfold Limits.look
    split
    · exact .inl rfl
    · exact .inr rfl
  checkSize _ _ := .inr rfl

/-- A conversion that is not cut off at its deadline goes as one whose deadline is never reached. -/
theorem convert_eq_or (e : Expr) :
    convert limits e = .error .deadline ∨ convert limits e = convert limits.unhurried e := by
  unfold convert
  dsimp only
  rcases limits.parallel_unhurried.conversion e 0 with cut | same
  · rw [cut]
    exact .inl rfl
  · rw [same]
    exact .inr rfl

end Follows

end ProductLine.Cnf
