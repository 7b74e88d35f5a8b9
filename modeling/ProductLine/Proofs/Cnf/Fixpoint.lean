/- # Fixed points — a converted clause is converted to itself

The clauses of a conversion are `Plain`: they have literals, and these are of
pairwise different features.  So is the clause of an exclusion.  Written as an
expression and converted, a plain clause is its own and only result, literal
for literal in the same order (`convert_disjunction`): each step of the
distribution adds one literal to the one clause there is, which is never a
tautology on the way, and no step needs a budget above one.
-/
import ProductLine.Encoding
import ProductLine.Proofs.ClauseTruth
import ProductLine.Proofs.Cnf.Distribution
import ProductLine.Proofs.Expr.Chain

namespace ProductLine

/-- The clause has literals, and no feature twice. -/
structure Clause.Plain (c : Clause) : Prop where
  nonempty : c.literals ≠ []
  distinct : (c.literals.map Literal.feature).Nodup

namespace Clause

/-- Two literals of one feature are equal or opposite. -/
theorem eq_or_eq_negate_of_feature {k l : Literal} (h : k.feature = l.feature) :
    k = l ∨ k = l.negate := by
  obtain ⟨f, negated⟩ := k
  obtain ⟨g, negated'⟩ := l
  obtain rfl : f = g := h
  cases negated <;> cases negated' <;> simp [Literal.negate]

/-- Different features exclude a tautology. -/
theorem isTautology_eq_false {c : Clause} (h : (c.literals.map Literal.feature).Nodup) :
    c.isTautology = false := by
  refine isTautology_eq_false_iff.mpr fun l hl hnegate => ?_
  have same : l = l.negate := List.inj_on_of_nodup_map h hl hnegate rfl
  exact l.negate_ne same.symm

/-- A clause without repetitions that is no tautology has no feature twice. -/
theorem nodup_features {c : Clause} (distinct : c.Distinct) (h : c.isTautology = false) :
    (c.literals.map Literal.feature).Nodup := by
  refine List.Nodup.map_on (fun k hk l hl same => ?_) distinct
  rcases eq_or_eq_negate_of_feature same with rfl | rfl
  · rfl
  · exact absurd hk (isTautology_eq_false_iff.mp h l hl)

end Clause

/-- The clause of an exclusion has the excluded features first and all others after them. -/
theorem Encoding.map_feature_excludedClause (all excluded : List Feature) :
    (excludedClause all excluded).literals.map Literal.feature =
      excluded ++ all.filter (!excluded.contains ·) := by
  simp [excludedClause, Function.comp_def, Feature.pos, Feature.neg]

theorem Encoding.nodup_map_feature_excludedClause {all excluded : List Feature}
    (distinct : excluded.Nodup) (distinct' : all.Nodup) :
    ((excludedClause all excluded).literals.map Literal.feature).Nodup := by
  rw [map_feature_excludedClause]
  refine distinct.append (distinct'.filter _) fun f hf hother => ?_
  simp [hf] at hother

theorem Encoding.plain_excludedClause {all excluded : List Feature} (nonempty : excluded ≠ [])
    (distinct : excluded.Nodup) (distinct' : all.Nodup) : (excludedClause all excluded).Plain where
  nonempty := by simp [excludedClause, nonempty]
  distinct := nodup_map_feature_excludedClause distinct distinct'

/-! ## The forms of chains and of clauses -/

namespace Nnf

/-- The items of a form under an operator; a form of any other kind is an item by itself. -/
def items : Expr.Junction → Nnf → List Nnf
  | .and => conjuncts
  | .or => disjuncts

/-- The connective of an operator. -/
def node : Expr.Junction → List Nnf → Nnf
  | .and => all
  | .or => any

theorem items_node (op : Expr.Junction) (ns : List Nnf) : (node op ns).items op = ns := by
  cases op <;> rfl

end Nnf

theorem Expr.nnf_apply (op : Junction) (a b : Expr) :
    (op.apply a b).nnf false = .node op ((a.nnf false).items op ++ (b.nnf false).items op) := by
  cases op <;> rfl

/-- The operands of a chain are items of one connective, in their order. -/
theorem Expr.nnf_chainOf (op : Junction) (first second : Expr) (rest : List Expr) :
    (op.chainOf first (second :: rest)).nnf false =
      .node op ((first :: second :: rest).flatMap fun e => (e.nnf false).items op) := by
  induction rest generalizing first second with
  | nil =>
    rw [List.flatMap_cons, List.flatMap_singleton]
    exact nnf_apply op first second
  | cons third rest ih =>
    have longer := ih (op.apply first second) third
    rw [List.flatMap_cons, nnf_apply, Nnf.items_node, List.append_assoc] at longer
    rw [List.flatMap_cons, List.flatMap_cons]
    exact longer

theorem Literal.nnf_expr (l : Literal) : l.expr.nnf false = .literal l := by
  obtain ⟨f, negated⟩ := l
  cases negated <;> rfl

/-- The normal form of a clause; a single literal needs no disjunction. -/
def Clause.form (c : Clause) : Nnf :=
  match c.literals with
  | [l] => .literal l
  | ls => .any (ls.map .literal)

theorem Clause.nnf_disjunction (first : Literal) (rest : List Literal) :
    (disjunction first rest).nnf false = form ⟨first :: rest⟩ := by
  cases rest with
  | nil => exact first.nnf_expr
  | cons second rest =>
    have item (l : Literal) : (l.expr.nnf false).items .or = [.literal l] := by
      rw [l.nnf_expr]
      rfl
    rw [disjunction, List.map_cons, Expr.nnf_chainOf, ← List.map_cons, ← List.map_cons,
      List.flatMap_map]
    simp only [item]
    rw [← List.map_eq_flatMap]
    rfl

namespace Cnf

/-! ## Limits that no conversion of one clause exceeds -/

/-- One clause is within the budget, and the deadline is never reached. -/
structure Limits.Lenient (limits : Limits) : Prop where
  budget : 1 ≤ limits.maxClauses
  clock : ∀ k, limits.clock k = false

theorem simplify_singleton {c : Clause} (h : c.isTautology = false) : simplify [c] = [c] := by
  have kept : withoutTautologies [c] = [c] := by simp [withoutTautologies, h]
  rw [simplify, kept]
  rfl

section Steps

variable {limits : Limits} {c : Clause} {l : Literal}

theorem Limits.Lenient.inTime (h : limits.Lenient) (looks : Nat) : limits.InTime looks :=
  fun k _ => h.clock k

theorem Limits.Lenient.look (h : limits.Lenient) (looks : Nat) :
    limits.look looks = .ok ((), looks + 1) :=
  (h.inTime looks).look

theorem Limits.Lenient.simplify (h : limits.Lenient) (cs : List Clause) (looks : Nat) :
    ∃ looks', limits.simplify cs looks = .ok (Cnf.simplify cs, looks') :=
  (h.inTime looks).simplify cs

theorem Limits.checkSize_of_le {size : Nat} (h : size ≤ limits.maxClauses) (looks : Nat) :
    limits.checkSize size looks = .ok ((), looks) :=
  if_neg (Nat.not_lt.mpr h)

theorem Limits.Lenient.literal (h : limits.Lenient) (l : Literal) (looks : Nat) :
    clauses limits (.literal l) looks = .ok ([⟨[l]⟩], looks + 1) := by
  rw [clauses, Timed.bind_eq_ok_iff]
  exact ⟨(), looks + 1, h.look looks, rfl⟩

/-- One more literal, of a feature that is new, makes the one clause longer. -/
theorem product_literal (fresh : ((c.literals ++ [l]).map Literal.feature).Nodup) :
    product [c] [⟨[l]⟩] = [⟨c.literals ++ [l]⟩] := by
  have new : l ∉ c.literals := by
    intro hl
    rw [List.map_append, List.map_singleton] at fresh
    exact List.disjoint_of_nodup_append fresh (List.mem_map_of_mem hl) List.mem_cons_self
  have merged : c.merge ⟨[l]⟩ = ⟨c.literals ++ [l]⟩ := by
    simp [Clause.merge, Clause.insert, new]
  have proper : (⟨c.literals ++ [l]⟩ : Clause).isTautology = false :=
    Clause.isTautology_eq_false fresh
  simp [product, merged, withoutTautologies, proper]

/-- The literals are added to the one clause, from the first to the last. -/
theorem Limits.Lenient.distribute (h : limits.Lenient) (ls : List Literal) (c : Clause)
    (looks : Nat) (distinct : ((c.literals ++ ls).map Literal.feature).Nodup) :
    ∃ looks', Cnf.distribute limits [c] (ls.map .literal) looks =
      .ok ([⟨c.literals ++ ls⟩], looks') := by
  induction ls generalizing c looks with
  | nil =>
    rw [List.map_nil, Cnf.distribute, List.append_nil]
    exact ⟨looks, rfl⟩
  | cons l ls ih =>
    rw [← List.singleton_append, ← List.append_assoc] at distinct
    have prefixDistinct : ((c.literals ++ [l]).map Literal.feature).Nodup := by
      rw [List.map_append] at distinct
      exact distinct.of_append_left
    obtain ⟨between, hsimplify⟩ := h.simplify (product [c] [⟨[l]⟩]) (looks + 1)
    rw [product_literal prefixDistinct,
      simplify_singleton (Clause.isTautology_eq_false prefixDistinct)] at hsimplify
    obtain ⟨looks', hrest⟩ := ih ⟨c.literals ++ [l]⟩ between distinct
    refine ⟨looks', ?_⟩
    rw [List.map_cons, Cnf.distribute, Timed.bind_eq_ok_iff]
    have within := Limits.checkSize_of_le h.budget (looks + 1)
    refine ⟨_, _, h.literal l looks, Timed.bind_eq_ok_iff.mpr ⟨(), _, within, ?_⟩⟩
    rw [product_literal prefixDistinct, Timed.bind_eq_ok_iff]
    refine ⟨_, between, hsimplify, ?_⟩
    rw [hrest, List.append_assoc, List.singleton_append]

/-- A plain clause is the only clause of its form. -/
theorem Limits.Lenient.form (h : limits.Lenient) (plain : c.Plain) (looks : Nat) :
    ∃ looks', clauses limits c.form looks = .ok ([c], looks') := by
  obtain ⟨ls⟩ := c
  match ls, plain with
  | [], plain => exact absurd rfl plain.nonempty
  | [l], _ => exact ⟨looks + 1, h.literal l looks⟩
  | first :: second :: rest, plain =>
    obtain ⟨looks', hdistribute⟩ :=
      h.distribute (first :: second :: rest) ⟨[]⟩ (looks + 1) plain.distinct
    refine ⟨looks', ?_⟩
    rw [Clause.form, clauses, Timed.bind_eq_ok_iff]
    exact ⟨(), looks + 1, h.look looks, hdistribute⟩

/-- A conversion is not cut off any more once it has its clauses. -/
theorem Limits.Lenient.convert_eq_ok (h : limits.Lenient) {e : Expr} {cs : List Clause}
    {looks : Nat} (hclauses : clauses limits (e.nnf false) 0 = .ok (cs, looks)) :
    convert limits e = .ok (Cnf.simplify cs) := by
  obtain ⟨looks', hsimplify⟩ := h.simplify cs looks
  exact convert_eq_ok_iff.mpr ⟨cs, looks, looks', hclauses, hsimplify⟩

end Steps

variable {limits : Limits} {first : Literal} {rest : List Literal}

/-- A plain clause is converted to itself. -/
theorem convert_disjunction (h : limits.Lenient) (plain : Clause.Plain ⟨first :: rest⟩) :
    convert limits (Clause.disjunction first rest) = .ok [⟨first :: rest⟩] := by
  obtain ⟨looks, hclauses⟩ := h.form plain 0
  rw [← Clause.nnf_disjunction] at hclauses
  rw [h.convert_eq_ok hclauses, simplify_singleton (Clause.isTautology_eq_false plain.distinct)]

/-- What a conversion returns are plain clauses. -/
theorem plain_of_mem_conversion {e : Expr} {c : Clause} (h : c ∈ conversion e) : c.Plain where
  nonempty := literals_ne_nil_of_mem_conversion h
  distinct := by
    obtain ⟨hmem, proper⟩ := mem_of_mem_simplify h
    exact Clause.nodup_features (distinct_clausesOf _ c hmem) proper

end Cnf

end ProductLine
