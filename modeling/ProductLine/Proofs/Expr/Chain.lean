/- # Chains — lists of operands with an operator between them

Clauses, cubes and disjunctions of cubes are written as lists: the texts of
their items with ` & ` or ` | ` in between.  To the grammar such a text is a
chain, whose tree leans to the left (`writes_chain`).  It is as deeply nested
as its deepest operand, however long it is; what grows with its length is the
height, by one level for each operator (`height_chainOf`).

A clause is the case that a model keeps.  Its literals are one or two levels
high, and which it is shows only at the bottom of the tree, where the first two
are joined.  So a clause is read back if it has at most 255 literals, and one
of 256 literals if it begins with two positive ones
(`Clause.height_disjunction_le_iff`).
-/
import ProductLine.Proofs.ClauseText
import ProductLine.Proofs.Expr.Writing

namespace ProductLine

namespace Expr

/-! ## Any operator -/

/-- The operands joined from the left. -/
def Junction.chainOf (op : Junction) (first : Expr) (rest : List Expr) : Expr :=
  rest.foldl op.apply first

variable {op : Junction} {first : Expr} {rest : List Expr} {σ : Assignment}

theorem eval_chainOf_or :
    (Junction.or.chainOf first rest).eval σ = (first :: rest).any (eval σ) := by
  unfold Junction.chainOf
  induction rest generalizing first with
  | nil => exact (Bool.or_false _).symm
  | cons next rest ih =>
    rw [List.foldl_cons, ih, List.any_cons, List.any_cons, List.any_cons, ← Bool.or_assoc]
    rfl

theorem eval_chainOf_and :
    (Junction.and.chainOf first rest).eval σ = (first :: rest).all (eval σ) := by
  unfold Junction.chainOf
  induction rest generalizing first with
  | nil => exact (Bool.and_true _).symm
  | cons next rest ih =>
    rw [List.foldl_cons, ih, List.all_cons, List.all_cons, List.all_cons, ← Bool.and_assoc]
    rfl

/-- Each operator adds one level, where no operand is higher than the first one. -/
theorem height_chainOf (hrest : ∀ e ∈ rest, e.height ≤ first.height) :
    (op.chainOf first rest).height = first.height + rest.length := by
  unfold Junction.chainOf
  induction rest generalizing first with
  | nil => rfl
  | cons next rest ih =>
    obtain ⟨hnext, hrest⟩ := List.forall_mem_cons.mp hrest
    have joined : (op.apply first next).height = first.height + 1 := by
      rw [height_apply, Nat.max_eq_left hnext]
    have all : ∀ e ∈ rest, e.height ≤ (op.apply first next).height := by
      rw [joined]
      exact fun e he => Nat.le_succ_of_le (hrest e he)
    rw [List.foldl_cons, List.length_cons, ih all, joined]
    omega

theorem leaves_chainOf :
    (op.chainOf first rest).leaves = first.leaves ++ rest.flatMap leaves := by
  unfold Junction.chainOf
  induction rest generalizing first with
  | nil => exact (List.append_nil _).symm
  | cons next rest ih =>
    have joined : (op.apply first next).leaves = first.leaves ++ next.leaves := by cases op <;> rfl
    rw [List.foldl_cons, ih, joined, List.append_assoc, List.flatMap_cons]

section Texts

variable {α : Type} {text : α → String} {tree : α → Expr} {k : Nat}

/-- A list of texts is the first one, then each of the others after a separator. -/
theorem toList_intercalate_cons (separator x : String) (xs : List String) :
    (separator.intercalate (x :: xs)).toList =
      x.toList ++ xs.flatMap fun y => separator.toList ++ y.toList := by
  rw [String.toList_intercalate, List.map_cons]
  induction xs generalizing x with
  | nil => simp
  | cons y ys ih => rw [List.map_cons, List.intercalate_cons_cons, ih, List.flatMap_cons]; simp

/-- A chain goes on with each operand that follows an operator. -/
theorem Phrase.Writes.joinAll {cs : List Char} {e : Expr} {xs : List α} {m : Nat}
    (h : (Phrase.chain op).Writes m cs e) (hm : m ≤ k)
    (operands : ∀ x ∈ xs, ∃ n ≤ k, op.operand.Writes n (text x).toList (tree x)) :
    ∃ n ≤ k, (Phrase.chain op).Writes n
      (cs ++ (xs.map text).flatMap fun y => op.text.toList ++ y.toList)
      (op.chainOf e (xs.map tree)) := by
  induction xs generalizing cs e m with
  | nil =>
    rw [List.map_nil, List.flatMap_nil, List.append_nil]
    exact ⟨m, hm, h⟩
  | cons x xs ih =>
    obtain ⟨⟨n, hn, operand⟩, others⟩ := List.forall_mem_cons.mp operands
    rw [List.map_cons, List.flatMap_cons, ← List.append_assoc]
    exact ih (h.join op operand) (Nat.max_le.mpr ⟨hm, hn⟩) others

/-- Operands with an operator between them are a chain. -/
theorem writes_chain {x : α} {xs : List α}
    (operands : ∀ y ∈ x :: xs, ∃ n ≤ k, op.operand.Writes n (text y).toList (tree y)) :
    ∃ n ≤ k, (Phrase.chain op).Writes n (op.text.intercalate ((x :: xs).map text)).toList
      (op.chainOf (tree x) (xs.map tree)) := by
  obtain ⟨⟨n, hn, operand⟩, others⟩ := List.forall_mem_cons.mp operands
  rw [List.map_cons, toList_intercalate_cons]
  exact (operand.single op).joinAll hn others

end Texts

end Expr

/-! ## Literals and clauses -/

/-- The literal as an expression. -/
def Literal.expr (l : Literal) : Expr :=
  if l.negated then .not (.var l.feature) else .var l.feature

/-- The disjunction of literals, of which there is at least one. -/
def Clause.disjunction (first : Literal) (rest : List Literal) : Expr :=
  Expr.Junction.or.chainOf first.expr (rest.map Literal.expr)

theorem Literal.eval_expr (σ : Assignment) (l : Literal) : l.expr.eval σ = l.eval σ := by
  obtain ⟨f, negated⟩ := l
  cases negated
  · exact (eval_pos σ f).symm
  · exact (eval_neg σ f).symm

theorem Literal.height_expr (l : Literal) : l.expr.height = if l.negated then 2 else 1 := by
  obtain ⟨f, negated⟩ := l
  cases negated <;> rfl

/-- The first two literals of a chain decide its height, beside its length. -/
theorem Literal.height_chainOf (op : Expr.Junction) (first second : Literal)
    (rest : List Literal) :
    (op.chainOf first.expr ((second :: rest).map expr)).height =
      (if first.negated || second.negated then 3 else 2) + rest.length := by
  have joined : (op.apply first.expr second.expr).height =
      if first.negated || second.negated then 3 else 2 := by
    rw [Expr.height_apply, height_expr, height_expr]
    cases first.negated <;> cases second.negated <;> rfl
  have low : ∀ e ∈ rest.map expr, e.height ≤ (op.apply first.expr second.expr).height := by
    refine List.forall_mem_map.mpr fun l _ => ?_
    rw [joined, height_expr]
    split <;> split <;> decide
  have chain : op.chainOf first.expr ((second :: rest).map expr) =
      op.chainOf (op.apply first.expr second.expr) (rest.map expr) := rfl
  rw [chain, Expr.height_chainOf low, joined, List.length_map]

theorem Literal.writes_text (l : Literal) :
    ∃ n ≤ 1, Expr.Phrase.factor.Writes n l.text.toList l.expr := by
  obtain ⟨f, negated⟩ := l
  cases negated with
  | false => exact ⟨0, Nat.zero_le 1, Expr.writes_var f⟩
  | true =>
    have negation := (Expr.writes_var f).not
    refine ⟨1, Nat.le_refl 1, ?_⟩
    rw [text, if_pos rfl, String.toList_append]
    exact negation

namespace Clause

variable {first : Literal} {rest : List Literal}

theorem eval_disjunction (σ : Assignment) :
    (disjunction first rest).eval σ = eval σ ⟨first :: rest⟩ := by
  rw [disjunction, Expr.eval_chainOf_or, ← List.map_cons, List.any_map, eval]
  exact congrArg (List.any _) (funext fun l => l.eval_expr σ)

theorem leaves_disjunction :
    (disjunction first rest).leaves = (first :: rest).map Literal.feature := by
  have leaf (l : Literal) : l.expr.leaves = [l.feature] := by
    obtain ⟨f, negated⟩ := l
    cases negated <;> rfl
  rw [disjunction, Expr.leaves_chainOf, leaf, List.flatMap_map]
  simp only [leaf]
  rw [← List.map_eq_flatMap, List.singleton_append, List.map_cons]

theorem toList_text_ne_nil {c : Clause} (nonempty : c.literals ≠ []) : c.text.toList ≠ [] := by
  obtain ⟨l, ls, hc⟩ := List.exists_cons_of_ne_nil nonempty
  rw [text, hc, List.map_cons, Expr.toList_intercalate_cons]
  exact List.append_ne_nil_of_left_ne_nil l.text_ne_nil _

/-- A literal is a conjunction of one literal, and these are the operands of a disjunction.  No text
of a clause is nested too deeply. -/
theorem writes_text (first : Literal) (rest : List Literal) : ∃ n ≤ maxDepth,
    Expr.Phrase.expr.Writes n (text ⟨first :: rest⟩).toList (disjunction first rest) := by
  refine Expr.writes_chain fun l _ => ?_
  obtain ⟨n, hn, written⟩ := l.writes_text
  exact ⟨n, Nat.le_trans hn (by decide), .single .and written⟩

/-- How many literals a clause may have for its tree to be within the bound. -/
theorem height_disjunction_le_iff : (disjunction first rest).height ≤ maxDepth ↔
    rest.length < 255 ∨ rest.length = 255 ∧ ∀ l ∈ (first :: rest).take 2, l.negated = false := by
  cases rest with
  | nil =>
    have low : first.expr.height ≤ 2 := by
      rw [Literal.height_expr]
      split <;> decide
    exact iff_of_true (Nat.le_trans low (by decide)) (.inl (by decide))
  | cons second rest =>
    rw [disjunction, Literal.height_chainOf, List.length_cons, maxDepth]
    cases hfirst : first.negated <;> cases hsecond : second.negated <;>
      simp [hfirst, hsecond] <;> omega

/-- A clause is read from its text if it is not too long. -/
theorem parse_eq_ok (short : rest.length < 255) :
    Expr.parse (text ⟨first :: rest⟩) = .ok (disjunction first rest) := by
  obtain ⟨n, nesting, written⟩ := writes_text first rest
  exact (written.ofChars_eq_ok_iff nesting).mpr ⟨rfl, height_disjunction_le_iff.mpr (.inl short)⟩

end Clause

end ProductLine
