/- # What simplification keeps — every clause is covered by a kept one

A clause is dropped because another one of the list subsumes it, and that
other one may be dropped in its turn.  The descent ends: of the clauses that
subsume a given one, take the shortest, and of those the first.  Nothing
dominates it, since whatever did would subsume the given clause too and be
shorter or come earlier.  So every clause that is no tautology is subsumed by
a kept one (`exists_mem_simplify_subsumes`).

Kept clauses are independent: where no clause repeats a literal, none of them
subsumes another (`pairwise_simplify`).  Repetitions have to be excluded
because domination compares lengths: `A | A` subsumes `A | B` and is as long.
-/
import Mathlib.Data.List.Pairwise
import Mathlib.Data.List.Perm.Subperm
import ProductLine.Cnf.Simplify

namespace ProductLine

namespace Clause

/-- No literal is repeated. -/
def Distinct (c : Clause) : Prop :=
  c.literals.Nodup

instance (c : Clause) : Decidable c.Distinct :=
  inferInstanceAs (Decidable c.literals.Nodup)

theorem subsumes_refl (c : Clause) : c.subsumes c = true :=
  subsumes_iff.mpr fun _ h => h

theorem subsumes_trans {c d e : Clause} (h : c.subsumes d = true) (h' : d.subsumes e = true) :
    c.subsumes e = true :=
  subsumes_iff.mpr fun l hl => subsumes_iff.mp h' l (subsumes_iff.mp h l hl)

theorem size_le_of_subsumes {c d : Clause} (hc : c.Distinct) (h : c.subsumes d = true) :
    c.size ≤ d.size :=
  (List.subperm_of_subset hc (subsumes_iff.mp h)).length_le

/-- Two clauses without repetitions are as long as each other only if they have the same
literals. -/
theorem subsumes_of_size_le {c d : Clause} (hc : c.Distinct) (h : c.subsumes d = true)
    (hsize : d.size ≤ c.size) : d.subsumes c = true := by
  have perm : c.literals.Perm d.literals :=
    (List.subperm_of_subset hc (subsumes_iff.mp h)).perm_of_length_le hsize
  exact subsumes_iff.mpr fun l hl => perm.mem_iff.mpr hl

end Clause

namespace Cnf

/-! ## Domination by position

`undominated` walks down the list with the clauses before it in reverse.  Only
which clauses those are matters, and the lemma below says so once. -/

theorem isDominated_eq_false_iff {c : Clause} {before after : List Clause} :
    isDominated c before after = false ↔
      (∀ d ∈ before, d.subsumes c = true → c.size < d.size) ∧
        ∀ d ∈ after, d.subsumes c = true → c.size ≤ d.size := by
  simp only [isDominated, Bool.or_eq_false_iff, List.any_eq_false, Bool.and_eq_true,
    decide_eq_true_eq, not_and, Nat.not_le, Nat.not_lt]

/-- A clause stays exactly if it is not dominated where it stands. -/
theorem mem_undominated_iff {before after : List Clause} {c : Clause} :
    c ∈ undominated before after ↔
      ∃ pre post, after = pre ++ c :: post ∧
        isDominated c (pre.reverse ++ before) post = false := by
  induction after generalizing before with
  | nil => simp [undominated]
  | cons d after ih =>
    constructor
    · intro h
      have cases : (c = d ∧ isDominated d before after = false) ∨
          c ∈ undominated (d :: before) after := by
        unfold undominated at h
        split at h
        case isTrue => exact .inr h
        case isFalse hd =>
          rcases List.mem_cons.mp h with rfl | h
          · exact .inl ⟨rfl, Bool.eq_false_iff.mpr hd⟩
          · exact .inr h
      rcases cases with ⟨rfl, hd⟩ | h
      · exact ⟨[], after, rfl, hd⟩
      · obtain ⟨pre, post, rfl, hc⟩ := ih.mp h
        exact ⟨d :: pre, post, rfl, by simpa using hc⟩
    · rintro ⟨pre, post, heq, hc⟩
      unfold undominated
      cases pre with
      | nil =>
        obtain ⟨rfl, rfl⟩ := List.cons.inj heq
        have keep : isDominated d before after = false := hc
        rw [if_neg (Bool.eq_false_iff.mp keep)]
        exact List.mem_cons_self
      | cons _ pre =>
        obtain ⟨rfl, rfl⟩ := List.cons.inj heq
        have later : c ∈ undominated (d :: before) (pre ++ c :: post) :=
          ih.mpr ⟨pre, post, rfl, by simpa using hc⟩
        split
        · exact later
        · exact List.mem_cons_of_mem _ later

theorem undominated_sublist (before after : List Clause) :
    (undominated before after).Sublist after := by
  induction after generalizing before with
  | nil => exact .slnil
  | cons c after ih =>
    unfold undominated
    split
    · exact (ih (c :: before)).cons c
    · exact (ih (c :: before)).cons_cons c

theorem mem_withoutTautologies_iff {cs : List Clause} {c : Clause} :
    c ∈ withoutTautologies cs ↔ c ∈ cs ∧ c.isTautology = false := by
  rw [withoutTautologies, List.mem_filter, Bool.not_eq_true']

/-- Simplification keeps order, and what it keeps was there and is no tautology. -/
theorem simplify_sublist (cs : List Clause) : (simplify cs).Sublist (withoutTautologies cs) :=
  undominated_sublist [] _

theorem mem_of_mem_simplify {cs : List Clause} {c : Clause} (h : c ∈ simplify cs) :
    c ∈ cs ∧ c.isTautology = false :=
  mem_withoutTautologies_iff.mp ((simplify_sublist cs).subset h)

theorem mem_simplify_iff {cs : List Clause} {c : Clause} :
    c ∈ simplify cs ↔
      ∃ pre post, withoutTautologies cs = pre ++ c :: post ∧
        (∀ d ∈ pre, d.subsumes c = true → c.size < d.size) ∧
          ∀ d ∈ post, d.subsumes c = true → c.size ≤ d.size := by
  rw [simplify, mem_undominated_iff]
  simp only [isDominated_eq_false_iff, List.append_nil, List.mem_reverse]

/-! ## Coverage -/

/-- Of the members with a property, the first of those for which `f` is least. -/
theorem exists_first_least {α : Type} (p : α → Prop) (f : α → Nat) :
    ∀ {xs : List α} {x : α}, x ∈ xs → p x →
      ∃ pre y post, xs = pre ++ y :: post ∧ p y ∧
        (∀ z ∈ pre, p z → f y < f z) ∧ ∀ z ∈ post, p z → f y ≤ f z := by
  intro xs
  induction xs with
  | nil => intro x h; cases h
  | cons a xs ih =>
    intro x hx hpx
    by_cases later : ∃ z ∈ xs, p z
    · obtain ⟨z, hz, hpz⟩ := later
      obtain ⟨pre, y, post, rfl, hpy, hpre, hpost⟩ := ih hz hpz
      by_cases first : p a ∧ f a ≤ f y
      · refine ⟨[], a, _, rfl, first.1, fun _ h => absurd h List.not_mem_nil, fun w hw hpw => ?_⟩
        rcases List.mem_append.mp hw with hw | hw
        · exact Nat.le_trans first.2 (Nat.le_of_lt (hpre w hw hpw))
        · rcases List.mem_cons.mp hw with rfl | hw
          · exact first.2
          · exact Nat.le_trans first.2 (hpost w hw hpw)
      · refine ⟨a :: pre, y, post, rfl, hpy, fun w hw hpw => ?_, hpost⟩
        rcases List.mem_cons.mp hw with rfl | hw
        · exact Nat.lt_of_not_le fun hle => first ⟨hpw, hle⟩
        · exact hpre w hw hpw
    · rcases List.mem_cons.mp hx with rfl | hx
      · exact ⟨[], x, xs, rfl, hpx, fun _ h => absurd h List.not_mem_nil,
          fun w hw hpw => absurd ⟨w, hw, hpw⟩ later⟩
      · exact absurd ⟨x, hx, hpx⟩ later

/-- Every clause that is no tautology is subsumed by a kept one. -/
theorem exists_mem_simplify_subsumes {cs : List Clause} {c : Clause} (h : c ∈ cs)
    (ht : c.isTautology = false) : ∃ d ∈ simplify cs, d.subsumes c = true := by
  obtain ⟨pre, d, post, heq, hdc, hpre, hpost⟩ :=
    exists_first_least (fun d => d.subsumes c = true) Clause.size
      (mem_withoutTautologies_iff.mpr ⟨h, ht⟩) c.subsumes_refl
  -- whatever subsumes `d` subsumes `c`, so the choice of `d` bounds its length
  exact ⟨d, mem_simplify_iff.mpr ⟨pre, post, heq,
    fun e he hed => hpre e he (Clause.subsumes_trans hed hdc),
    fun e he hed => hpost e he (Clause.subsumes_trans hed hdc)⟩, hdc⟩

/-! ## Independence -/

theorem pairwise_undominated (before after : List Clause) :
    (undominated before after).Pairwise fun c d =>
      (c.subsumes d = true → d.size < c.size) ∧ (d.subsumes c = true → c.size ≤ d.size) := by
  induction after generalizing before with
  | nil => exact .nil
  | cons c after ih =>
    unfold undominated
    split
    case isTrue => exact ih (c :: before)
    case isFalse hc =>
      refine List.pairwise_cons.mpr ⟨fun d hd => ⟨?_, ?_⟩, ih (c :: before)⟩
      · obtain ⟨pre, post, -, hd⟩ := mem_undominated_iff.mp hd
        exact (isDominated_eq_false_iff.mp hd).1 c
          (List.mem_append_right _ List.mem_cons_self)
      · exact (isDominated_eq_false_iff.mp (Bool.eq_false_iff.mpr hc)).2 d
          ((undominated_sublist _ _).subset hd)

/-- Where no clause repeats a literal, no kept clause subsumes another kept one. -/
theorem pairwise_simplify {cs : List Clause} (distinct : ∀ c ∈ cs, c.Distinct) :
    (simplify cs).Pairwise fun c d => c.subsumes d = false ∧ d.subsumes c = false := by
  refine (pairwise_undominated [] _).imp_of_mem ?_
  intro c d hc hd ⟨hcd, hdc⟩
  have distinct_c : c.Distinct := distinct c (mem_of_mem_simplify hc).1
  have distinct_d : d.Distinct := distinct d (mem_of_mem_simplify hd).1
  have no_forth : c.subsumes d = false := by
    refine Bool.eq_false_iff.mpr fun h => ?_
    exact Nat.not_lt.mpr (Clause.size_le_of_subsumes distinct_c h) (hcd h)
  refine ⟨no_forth, Bool.eq_false_iff.mpr fun h => ?_⟩
  have back := Clause.subsumes_of_size_le distinct_d h (hdc h)
  exact Bool.false_ne_true (no_forth.symm.trans back)

/-- The same by membership: a kept clause is subsumed by no other kept one. -/
theorem subsumes_eq_false_of_mem_simplify {cs : List Clause} (distinct : ∀ c ∈ cs, c.Distinct)
    {c d : Clause} (hc : c ∈ simplify cs) (hd : d ∈ simplify cs) (hne : c ≠ d) :
    c.subsumes d = false := by
  have symm : Std.Symm fun c d : Clause => c.subsumes d = false ∧ d.subsumes c = false :=
    ⟨fun _ _ h => ⟨h.2, h.1⟩⟩
  exact ((pairwise_simplify distinct).forall hc hd hne).1

/-! ## Simplifying again

Domination is looked for among all clauses of a list, and there are fewer of
them after a simplification.  So what has not been dropped once is not dropped
later.  This needs nothing of the clauses: a repeated literal does no harm here. -/

/-- Nothing is dropped from a list in which no clause dominates another one. -/
theorem undominated_eq_self {before after : List Clause}
    (hbefore : ∀ d ∈ before, ∀ c ∈ after, d.subsumes c = true → c.size < d.size)
    (hafter : after.Pairwise fun c d =>
      (c.subsumes d = true → d.size < c.size) ∧ (d.subsumes c = true → c.size ≤ d.size)) :
    undominated before after = after := by
  induction after generalizing before with
  | nil => rfl
  | cons c after ih =>
    obtain ⟨hc, hafter⟩ := List.pairwise_cons.mp hafter
    have stays : isDominated c before after = false :=
      isDominated_eq_false_iff.mpr
        ⟨fun d hd => hbefore d hd c List.mem_cons_self, fun d hd => (hc d hd).2⟩
    rw [undominated, if_neg (Bool.eq_false_iff.mp stays), ih ?_ hafter]
    intro d hd e he
    rcases List.mem_cons.mp hd with rfl | hd
    · exact (hc e he).1
    · exact hbefore d hd e (List.mem_cons_of_mem c he)

/-- Simplifying a second time changes nothing, whatever the clauses are. -/
theorem simplify_simplify (cs : List Clause) : simplify (simplify cs) = simplify cs := by
  have proper : withoutTautologies (simplify cs) = simplify cs := by
    refine List.filter_eq_self.mpr fun c hc => ?_
    rw [(mem_of_mem_simplify hc).2]
    rfl
  calc
    simplify (simplify cs) = undominated [] (withoutTautologies (simplify cs)) := rfl
    _ = undominated [] (simplify cs) := by rw [proper]
    _ = simplify cs := undominated_eq_self nofun (pairwise_undominated [] _)

end Cnf

end ProductLine
