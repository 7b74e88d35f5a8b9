/- # Lengths of clauses — which clause texts are expressions

A clause is written in two languages at once.  Its literals can be read off
its text however many there are (`Clause.ofText?_text`), so that different
clauses have different texts.  To the expression language the same text is a
chain that leans to the left, and its tree grows by one level with each bar.
The language has room for 255 literals, or for one more if neither of the two
literals at the bottom of the tree is a negation
(`Clause.exists_parse_iff`).

The clause of an exclusion has a literal for every feature of the model, and
begins with a negative one.  So in a model of 256 features every exclusion
adds a text that is no expression (`Draft.WellFormed.tooDeep_excluded`).
-/
import ProductLine.Proofs.Draft.Erasure
import ProductLine.Proofs.Encoding
import ProductLine.Proofs.Encoding.Exclusion
import ProductLine.Proofs.Source.Rewriting

namespace ProductLine

namespace Clause

variable {c : Clause} {first : Literal} {rest : List Literal}

/-! ## Reading literals -/

theorem toList_text_eq_nil_iff : c.text.toList = [] ↔ c.literals = [] := by
  constructor
  · intro h
    by_contra nonempty
    exact toList_text_ne_nil nonempty h
  · intro h
    rw [text, h]
    rfl

/-- Clauses with the same text are the same. -/
theorem text_injective : Function.Injective text := by
  intro c d same
  by_cases empty : c.literals = []
  case pos =>
    have empty' : d.literals = [] := by
      rw [← toList_text_eq_nil_iff, ← same, toList_text_eq_nil_iff]
      exact empty
    obtain ⟨ls⟩ := c
    obtain ⟨ks⟩ := d
    exact congrArg mk (empty.trans empty'.symm)
  case neg =>
    have nonempty : d.literals ≠ [] := by
      rwa [Ne, ← toList_text_eq_nil_iff, ← same, toList_text_eq_nil_iff]
    have read := ofText?_text empty
    rw [same, ofText?_text nonempty] at read
    exact (Option.some.inj read).symm

/-! ## Reading expressions -/

theorem exists_parse_iff : (∃ e, Expr.parse (text ⟨first :: rest⟩) = .ok e) ↔
    rest.length < 255 ∨ rest.length = 255 ∧ ∀ l ∈ (first :: rest).take 2, l.negated = false := by
  obtain ⟨n, nesting, written⟩ := writes_text first rest
  exact (written.exists_ofChars_iff nesting).trans height_disjunction_le_iff

theorem tooDeep_iff : Expr.TooDeep (Expr.parse (text ⟨first :: rest⟩)) ↔
    ¬ (rest.length < 255 ∨
      rest.length = 255 ∧ ∀ l ∈ (first :: rest).take 2, l.negated = false) := by
  obtain ⟨n, nesting, written⟩ := writes_text first rest
  rw [← height_disjunction_le_iff, Nat.not_le]
  exact written.tooDeep_iff nesting

theorem eval_of_parse {e : Expr} (read : Expr.parse (text ⟨first :: rest⟩) = .ok e)
    (σ : Assignment) : e.eval σ = eval σ ⟨first :: rest⟩ := by
  obtain ⟨n, nesting, written⟩ := writes_text first rest
  obtain ⟨rfl, -⟩ := (written.ofChars_eq_ok_iff nesting).mp read
  exact eval_disjunction σ

end Clause

/-! ## Exclusions in large models -/

/-- The first literal of an exclusion is negative, so that there is no room for 256 of them. -/
theorem Encoding.tooDeep_excludedClause {all excluded : List Feature} (nonempty : excluded ≠ [])
    (distinct : all.Nodup) (distinct' : excluded.Nodup) (declared : excluded ⊆ all)
    (many : 256 ≤ all.length) : Expr.TooDeep (Expr.parse (excludedClause all excluded).text) := by
  have length := (perm_map_feature_excludedClause distinct distinct' declared).length_eq
  obtain ⟨f, fs, rfl⟩ := List.exists_cons_of_ne_nil nonempty
  obtain ⟨rest, literals⟩ : ∃ rest, excludedClause all (f :: fs) = ⟨f.neg :: rest⟩ := ⟨_, rfl⟩
  rw [literals, List.length_map, List.length_cons] at length
  rw [literals, Clause.tooDeep_iff]
  rintro (short | ⟨-, positive⟩)
  · omega
  · exact Bool.noConfusion (positive f.neg List.mem_cons_self)

namespace Draft

variable {d d' : Draft Id} {listed : List Feature}

/-- What an exclusion adds to a large model is no expression. -/
theorem WellFormed.tooDeep_excluded (fits : d.WellFormed) (many : 256 ≤ d.model.features.length)
    (happly : (d.apply (.excluded listed)).run = (.ok (), d')) :
    ∃ text, d'.model.constraints = d.model.constraints ++ [text] ∧
      Expr.TooDeep (Expr.parse text) := by
  obtain ⟨hmodel, -, -⟩ := revise_eq_ok_iff.mp happly
  obtain ⟨⟨nonempty, distinct, declared⟩, model⟩ := Model.addExcluded_eq_ok_iff.mp hmodel
  have inside : listed ⊆ d.model.features := fun f hf => (fits.mem_index_iff f).mp (declared f hf)
  refine ⟨(Encoding.excludedClause d.model.features listed).text, by rw [model], ?_⟩
  exact Encoding.tooDeep_excludedClause nonempty fits.features_nodup distinct inside many

/-- Every model with features has exclusions. -/
theorem WellFormed.exists_excluded (fits : d.WellFormed) (some : d.model.features ≠ []) :
    ∃ listed d', (d.apply (.excluded listed)).run = (.ok (), d') := by
  obtain ⟨f, fs, features⟩ := List.exists_cons_of_ne_nil some
  have declared : f ∈ d.index := by
    rw [fits.mem_index_iff, features]
    exact List.mem_cons_self
  have admitted : (Edit.excluded [f]).Admitted d :=
    ⟨List.cons_ne_nil f [], List.nodup_singleton f, List.forall_mem_singleton.mpr declared⟩
  exact ⟨[f], _, apply_of_admitted nofun admitted⟩

end Draft

/-- The literals of a clause are read back from its text, in their order, and no other clause has
that text.  As an expression the text is read if there are at most 255 literals, or 256 of which the
first two are positive, and then it is worth what the clause is worth.  In a model of 256 features
or more there are exclusions, and each of them adds a text that is too deep for an expression. -/
theorem Clause.expressible_text :
    (∀ c : Clause, c.literals ≠ [] →
      ofText? c.text = some c ∧ (∀ d : Clause, d.text = c.text → d = c) ∧
      ((∃ e, Expr.parse c.text = .ok e) ↔
        c.size ≤ 255 ∨ c.size = 256 ∧ ∀ l ∈ c.literals.take 2, l.negated = false) ∧
      ∀ e, Expr.parse c.text = .ok e → ∀ σ, e.eval σ = c.eval σ) ∧
    ∀ (name : String) (n : Normalizer Id) (edits : List Edit),
      let d := ((Draft.empty name n).applyAll edits).run.2
      256 ≤ d.model.features.length →
        (∃ listed d', (d.apply (.excluded listed)).run = (.ok (), d')) ∧
        ∀ listed d', (d.apply (.excluded listed)).run = (.ok (), d') →
          ∃ text, d'.model.constraints = d.model.constraints ++ [text] ∧
            Expr.TooDeep (Expr.parse text) := by
  constructor
  · intro c nonempty
    refine ⟨ofText?_text nonempty, fun d same => text_injective same, ?_⟩
    obtain ⟨ls⟩ := c
    obtain ⟨first, rest, rfl⟩ := List.exists_cons_of_ne_nil nonempty
    refine ⟨?_, fun e read σ => eval_of_parse read σ⟩
    rw [exists_parse_iff, size, List.length_cons]
    exact or_congr Nat.lt_iff_add_one_le (and_congr_left' (Nat.add_right_cancel_iff).symm)
  · intro name n edits d many
    have fits : d.WellFormed := Draft.wellFormed_run name n edits
    have some : d.model.features ≠ [] :=
      List.ne_nil_of_length_pos (Nat.lt_of_lt_of_le (by decide) many)
    exact ⟨fits.exists_excluded some, fun listed d' => fits.tooDeep_excluded many⟩

/-- What is accepted step by step is where a run arrives. -/
theorem Draft.Accepts.run_applyAll {d d' : Draft Id} {edits : List Edit}
    (h : Accepts d edits d') : (d.applyAll edits).run.2 = d' := by
  induction h with
  | nil => rfl
  | cons happly _ ih =>
    rw [run_applyAll_cons happly]
    exact ih

namespace Clause.Sample

open Encoding.Sample

def positives : Clause := ⟨(rows 256).map Feature.pos⟩
def negatives : Clause := ⟨(rows 256).map Feature.neg⟩

/-- The declarations of 256 features. -/
def declarations : List Edit :=
  (rows 256).map (Model.declare { name := "m" })

theorem features_declarations (n : Normalizer Id) :
    ((Draft.empty "m" n).applyAll declarations).run.2.model.features = rows 256 := by
  obtain ⟨index, -, accepts⟩ := Draft.exists_accepts_declare (d := .empty "m" n) { name := "m" }
    (fun f _ => FeatureSet.notMem_empty f) (nodup_rows 256)
  have run := accepts.run_applyAll
  rw [declarations, run]
  rfl

end Clause.Sample

open Encoding.Sample Clause.Sample Draft.Sample in
/-- Of 256 literals the signs decide; and a model of 256 features has an exclusion that is no
expression. -/
theorem Clause.expressible_text_rows :
    (positives.literals ≠ [] ∧
      ∃ e, Expr.parse positives.text = .ok e ∧ ∀ σ, e.eval σ = positives.eval σ) ∧
    (negatives.literals ≠ [] ∧ ofText? negatives.text = some negatives ∧
      ¬ ∃ e, Expr.parse negatives.text = .ok e) ∧
    ∃ d d' listed text, ((Draft.empty "m" asker).applyAll declarations).run.2 = d ∧
      256 ≤ d.model.features.length ∧ (d.apply (.excluded listed)).run = (.ok (), d') ∧
        d'.model.constraints = d.model.constraints ++ [text] ∧
          Expr.TooDeep (Expr.parse text) := by
  have long (sign : Feature → Literal) : ((rows 256).map sign).length = 256 := by
    rw [List.length_map, length_rows]
  have some (sign : Feature → Literal) : (rows 256).map sign ≠ [] :=
    List.ne_nil_of_length_pos (by rw [long]; decide)
  refine ⟨⟨some _, ?positive⟩, ⟨some _, ?negative⟩, ?exclusion⟩
  case positive =>
    obtain ⟨-, -, accepted, values⟩ := expressible_text.1 positives (some _)
    have signs : ∀ l ∈ positives.literals.take 2, l.negated = false := by
      intro l hl
      obtain ⟨f, -, rfl⟩ := List.mem_map.mp (List.mem_of_mem_take hl)
      rfl
    obtain ⟨e, read⟩ := accepted.mpr (.inr ⟨long _, signs⟩)
    exact ⟨e, read, values e read⟩
  case negative =>
    obtain ⟨read, -, accepted, -⟩ := expressible_text.1 negatives (some _)
    refine ⟨read, fun expression => ?_⟩
    rcases accepted.mp expression with short | ⟨-, signs⟩
    · rw [size, negatives, long] at short
      exact absurd short (by decide)
    · have two : 0 < (negatives.literals.take 2).length := by
        rw [List.length_take, negatives, long]
        decide
      obtain ⟨l, hl⟩ := List.exists_mem_of_length_pos two
      obtain ⟨f, -, rfl⟩ := List.mem_map.mp (List.mem_of_mem_take hl)
      exact Bool.noConfusion (signs _ hl)
  case exclusion =>
    -- the draft is named before anything is said of it, lest it be computed
    have large := expressible_text.2 "m" asker declarations
    have features := features_declarations asker
    generalize hd : ((Draft.empty "m" asker).applyAll declarations).run.2 = d at large features
    have many : 256 ≤ d.model.features.length := by
      rw [features, length_rows]
    obtain ⟨⟨listed, d', happly⟩, deep⟩ := large many
    obtain ⟨text, stored, deep⟩ := deep listed d' happly
    exact ⟨d, d', listed, text, rfl, many, happly, stored, deep⟩

end ProductLine
