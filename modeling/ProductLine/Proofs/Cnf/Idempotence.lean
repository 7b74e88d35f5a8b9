/- # Idempotence — what has been converted is converted to itself

The clauses of a conversion, written as one expression, are a conjunction of
disjunctions of literals.  Its normal form has these again as its items, in
the same order and with the same literals, since flattening undoes the leaning
of the chains.  Every item converts to one clause, and simplification finds
nothing to drop that it has not dropped before.

Nor is the second conversion cut off for its size.  It gathers no more clauses
than the first one returned, which its budget admitted (`length_convert_le`),
and each disjunction needs a budget of one.  Only a literal is converted with
less than that: any connective has a first item, and the check of a size after
it (`one_le_maxClauses_or_literal`).  So with an empty budget there has been
nothing but a literal, and the same literal is converted again.
-/
import ProductLine.Proofs.Cnf.Budget
import ProductLine.Proofs.Cnf.Fixpoint

namespace ProductLine

/-! ## Clauses as one expression -/

/-- The operands joined from the left, if there are any. -/
def Expr.Junction.chainOf? (op : Junction) : List Expr → Option Expr
  | [] => none
  | first :: rest => some (op.chainOf first rest)

namespace Clause

/-- The disjunction of the literals, if there are any. -/
def expr? (c : Clause) : Option Expr :=
  Expr.Junction.or.chainOf? (c.literals.map Literal.expr)

/-- The conjunction of the clauses, if there are any and each of them has literals. -/
def conjunction? (cs : List Clause) : Option Expr :=
  (cs.mapM expr?).bind Expr.Junction.and.chainOf?

theorem exists_expr {c : Clause} (nonempty : c.literals ≠ []) :
    ∃ e, c.expr? = some e ∧ e.nnf false = c.form := by
  obtain ⟨ls⟩ := c
  obtain ⟨first, rest, rfl⟩ := List.exists_cons_of_ne_nil nonempty
  exact ⟨disjunction first rest, rfl, nnf_disjunction first rest⟩

theorem exists_exprs {cs : List Clause} (nonempty : ∀ c ∈ cs, c.literals ≠ []) :
    ∃ es, cs.mapM expr? = some es ∧ es.map (Expr.nnf false) = cs.map form := by
  induction cs with
  | nil => exact ⟨[], rfl, rfl⟩
  | cons c cs ih =>
    obtain ⟨hc, hcs⟩ := List.forall_mem_cons.mp nonempty
    obtain ⟨e, he, hform⟩ := exists_expr hc
    obtain ⟨es, hes, hforms⟩ := ih hcs
    refine ⟨e :: es, ?_, by rw [List.map_cons, List.map_cons, hform, hforms]⟩
    rw [List.mapM_cons, he, hes]
    rfl

/-- A clause is no conjunction, and therefore one item of a conjunction. -/
theorem items_form (c : Clause) : c.form.items .and = [c.form] := by
  unfold form
  split <;> rfl

/-- The normal form of the whole: the forms of the clauses, in one conjunction if there are
several. -/
def forms (first : Clause) (rest : List Clause) : Nnf :=
  match rest with
  | [] => first.form
  | second :: rest => .all ((first :: second :: rest).map form)

theorem exists_conjunction {first : Clause} {rest : List Clause}
    (nonempty : ∀ c ∈ first :: rest, c.literals ≠ []) :
    ∃ e, conjunction? (first :: rest) = some e ∧ e.nnf false = forms first rest := by
  obtain ⟨es, hes, hforms⟩ := exists_exprs nonempty
  obtain ⟨e, es, rfl, he, hrest⟩ := List.map_eq_cons_iff.mp hforms
  refine ⟨Expr.Junction.and.chainOf e es, by rw [conjunction?, hes]; rfl, ?_⟩
  cases rest with
  | nil =>
    obtain rfl := List.map_eq_nil_iff.mp hrest
    exact he
  | cons second rest =>
    obtain ⟨e', es, rfl, -, -⟩ := List.map_eq_cons_iff.mp hrest
    have items : (e :: e' :: es).flatMap (fun e => (e.nnf false).items .and) =
        (first :: second :: rest).map form := by
      rw [← List.flatMap_map, hforms, List.flatMap_map]
      simp only [items_form]
      exact List.map_eq_flatMap.symm
    rw [Expr.nnf_chainOf, items]
    rfl

end Clause

namespace Cnf

/-! ## Room for one clause -/

section Room

variable {limits : Limits} {looks looks' : Nat}

/-- The first item of a connective is one clause, or it has a connective itself. -/
theorem one_le_maxClauses_of_item {n : Nnf} {ds : List Clause}
    (hitem : clauses limits n looks = .ok (ds, looks')) (within : ds.length ≤ limits.maxClauses)
    (inner : 1 ≤ limits.maxClauses ∨ ∃ l, n = .literal l) : 1 ≤ limits.maxClauses := by
  rcases inner with room | ⟨l, rfl⟩
  · exact room
  · rw [clauses_eq_ok _ hitem, clausesOf] at within
    exact within

/-- A conversion that returns has room for one clause, or converts a literal. -/
theorem one_le_maxClauses_or_literal {n : Nnf} (flat : n.Flat) {cs : List Clause}
    (h : clauses limits n looks = .ok (cs, looks')) :
    1 ≤ limits.maxClauses ∨ ∃ l, n = .literal l := by
  induction flat generalizing looks looks' cs with
  | literal l => exact .inr ⟨l, rfl⟩
  | @all items long _ _ ih =>
    obtain ⟨n, ns, rfl⟩ := List.exists_cons_of_length_pos (Nat.zero_lt_of_lt long)
    rw [clauses] at h
    obtain ⟨_, _, -, h⟩ := Timed.bind_eq_ok_iff.mp h
    obtain ⟨_, _, h, -⟩ := Timed.bind_eq_ok_iff.mp h
    rw [gather] at h
    obtain ⟨ds, _, hitem, h⟩ := Timed.bind_eq_ok_iff.mp h
    obtain ⟨_, _, hcheck, -⟩ := Timed.bind_eq_ok_iff.mp h
    have within := Limits.checkSize_eq_ok hcheck
    exact .inl (one_le_maxClauses_of_item hitem within (ih n List.mem_cons_self hitem))
  | @any items long _ _ ih =>
    obtain ⟨n, ns, rfl⟩ := List.exists_cons_of_length_pos (Nat.zero_lt_of_lt long)
    rw [clauses] at h
    obtain ⟨_, _, -, h⟩ := Timed.bind_eq_ok_iff.mp h
    rw [distribute] at h
    obtain ⟨ds, _, hitem, h⟩ := Timed.bind_eq_ok_iff.mp h
    obtain ⟨_, _, hcheck, -⟩ := Timed.bind_eq_ok_iff.mp h
    have within := Limits.checkSize_eq_ok hcheck
    rw [List.length_singleton, Nat.one_mul] at within
    exact .inl (one_le_maxClauses_of_item hitem within (ih n List.mem_cons_self hitem))

end Room

/-! ## The second conversion -/

section Again

variable {limits : Limits}

/-- Every form adds its clause to those before it. -/
theorem Limits.Lenient.gather (h : limits.Lenient) (sofar : List Clause) {cs : List Clause}
    (plain : ∀ c ∈ cs, c.Plain) (within : (sofar ++ cs).length ≤ limits.maxClauses)
    (looks : Nat) : ∃ looks', Cnf.gather limits sofar (cs.map Clause.form) looks =
      .ok (sofar ++ cs, looks') := by
  induction cs generalizing sofar looks with
  | nil =>
    rw [List.map_nil, Cnf.gather, List.append_nil]
    exact ⟨looks, rfl⟩
  | cons c cs ih =>
    obtain ⟨hc, hcs⟩ := List.forall_mem_cons.mp plain
    rw [← List.singleton_append, ← List.append_assoc] at within
    have sofarWithin : (sofar ++ [c]).length ≤ limits.maxClauses :=
      (List.sublist_append_left _ _).length_le.trans within
    obtain ⟨between, hform⟩ := h.form hc looks
    obtain ⟨looks', hrest⟩ := ih (sofar ++ [c]) hcs within between
    refine ⟨looks', ?_⟩
    rw [List.map_cons, Cnf.gather, Timed.bind_eq_ok_iff]
    refine ⟨[c], between, hform, Timed.bind_eq_ok_iff.mpr
      ⟨(), between, Limits.checkSize_of_le sofarWithin between, ?_⟩⟩
    rw [hrest, List.append_assoc, List.singleton_append]

/-- The clauses of the forms are the clauses again, simplified if there are several. -/
theorem Limits.Lenient.forms (h : limits.Lenient) {first : Clause} {rest : List Clause}
    (plain : ∀ c ∈ first :: rest, c.Plain)
    (within : (first :: rest).length ≤ limits.maxClauses)
    (simplified : Cnf.simplify (first :: rest) = first :: rest) :
    ∃ looks, clauses limits (Clause.forms first rest) 0 = .ok (first :: rest, looks) := by
  cases rest with
  | nil => exact h.form (plain first List.mem_cons_self) 0
  | cons second rest =>
    obtain ⟨between, hgather⟩ := h.gather [] plain within 1
    obtain ⟨looks, hsimplify⟩ := h.simplify (first :: second :: rest) between
    rw [simplified] at hsimplify
    refine ⟨looks, ?_⟩
    rw [Clause.forms, clauses, Timed.bind_eq_ok_iff]
    exact ⟨(), 1, h.look 0, Timed.bind_eq_ok_iff.mpr ⟨_, between, hgather, hsimplify⟩⟩

/-- Only the normal form of an expression matters to a conversion. -/
theorem convert_congr {e e' : Expr} (h : e.nnf false = e'.nnf false) :
    convert limits e = convert limits e' := by
  unfold convert
  rw [h]

theorem conversion_of_literal {e : Expr} {l : Literal} (h : e.nnf false = .literal l) :
    conversion e = [⟨[l]⟩] := by
  have proper : Clause.isTautology ⟨[l]⟩ = false :=
    Clause.isTautology_eq_false (List.nodup_singleton l.feature)
  rw [conversion, h, clausesOf, simplify_singleton proper]

/-- A conversion without a deadline that returns clauses at all returns the same ones, in the same
order and with their literals in the same order, for the conjunction of these clauses under the same
budget. -/
theorem convert_conjunction {m : Nat} {e : Expr} {cs : List Clause}
    (h : convert { maxClauses := m, clock := .ample } e = .ok cs) (nonempty : cs ≠ []) :
    ∃ e', Clause.conjunction? cs = some e' ∧
      convert { maxClauses := m, clock := .ample } e' = .ok cs := by
  have hcs : cs = conversion e := eq_of_convert_eq_ok h
  have plain : ∀ c ∈ cs, c.Plain := fun c hc => plain_of_mem_conversion (hcs ▸ hc)
  have simplified : simplify cs = cs := by
    rw [hcs]
    exact simplify_simplify _
  obtain ⟨ds, _, _, hclauses, -⟩ := convert_eq_ok_iff.mp h
  obtain ⟨first, rest, rfl⟩ := List.exists_cons_of_ne_nil nonempty
  obtain ⟨e', he', hforms⟩ := Clause.exists_conjunction fun c hc => (plain c hc).nonempty
  refine ⟨e', he', ?_⟩
  rcases one_le_maxClauses_or_literal (e.flat_nnf false) hclauses with room | ⟨l, hliteral⟩
  · have lenient : ({ maxClauses := m, clock := .ample } : Limits).Lenient := ⟨room, fun _ => rfl⟩
    have within := length_convert_le h
    rw [Nat.max_eq_right room] at within
    obtain ⟨looks, hclauses'⟩ := lenient.forms plain within simplified
    rw [← hforms] at hclauses'
    rw [lenient.convert_eq_ok hclauses', simplified]
  · -- the one clause of a literal has that literal for its form
    have single : first :: rest = [⟨[l]⟩] := by
      rw [hcs, conversion_of_literal hliteral]
    cases single
    rw [convert_congr (hforms.trans hliteral.symm), h]

end Again

namespace Sample

/-- `(A | C) & (B | !A) & (B | C)`. -/
def branchingConjunction : Expr :=
  .and (.and (.or (.var a) (.var c)) (.or (.var b) (.not (.var a)))) (.or (.var b) (.var c))

end Sample

open Cnf.Sample in
/-- Three clauses of four products, and a literal under the empty budget. -/
theorem convert_conjunction_branching :
    (convert { maxClauses := 4, clock := .ample } branching = .ok branchingClauses ∧
      branchingClauses ≠ [] ∧ Clause.conjunction? branchingClauses = some branchingConjunction ∧
      convert { maxClauses := 4, clock := .ample } branchingConjunction = .ok branchingClauses) ∧
    convert { maxClauses := 0, clock := .ample } (.not (.not (.not (.var a)))) = .ok [⟨[a.neg]⟩] ∧
      Clause.conjunction? [⟨[a.neg]⟩] = some (.not (.var a)) ∧
      convert { maxClauses := 0, clock := .ample } (.not (.var a)) = .ok [⟨[a.neg]⟩] := by
  have several : convert { maxClauses := 4, clock := .ample } branching = .ok branchingClauses := by
    decide
  have one : convert { maxClauses := 0, clock := .ample } (.not (.not (.not (.var a)))) =
      .ok [⟨[a.neg]⟩] := by decide
  have written : Clause.conjunction? branchingClauses = some branchingConjunction := by decide
  have written' : Clause.conjunction? [⟨[a.neg]⟩] = some (.not (.var a)) := by decide
  obtain ⟨e, he, again⟩ := convert_conjunction several (by decide)
  obtain ⟨e', he', again'⟩ := convert_conjunction one (by decide)
  obtain rfl := Option.some.inj (he.symm.trans written)
  obtain rfl := Option.some.inj (he'.symm.trans written')
  exact ⟨⟨several, by decide, written, again⟩, one, written', again'⟩

end Cnf

end ProductLine
