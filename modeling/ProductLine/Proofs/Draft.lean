/- # What an accepted edit asks for

A constraint asks that its expression be true.  An exclusion asks that an
assignment be another one than that which selects the listed features and
no other one of those declared.  No other edit asks for anything that the
clauses of a model could say.

Each accepted edit appends to the constraints of a draft the texts of
clauses that hold exactly where what it asks for holds
(`Draft.adds_of_apply`).  Two encoders are behind this: conversion
for constraints, which keeps the meaning whatever its limits are, and
`Encoding.excludedClause`, whose clause fails at one configuration.
-/
import ProductLine.Model.Draft
import ProductLine.Proofs.Cnf.Meaning
import ProductLine.Proofs.Model

namespace ProductLine

/-! ## Configurations -/

/-- The assignment selects the listed features and no other one of `all`. -/
def Selects (σ : Assignment) (all listed : List Feature) : Prop :=
  (∀ f ∈ listed, σ f = true) ∧ ∀ f ∈ all, f ∉ listed → σ f = false

/-- The clause of an exclusion is false where exactly the excluded features are selected. -/
theorem Encoding.eval_excludedClause_iff {σ : Assignment} {all excluded : List Feature} :
    (excludedClause all excluded).eval σ = true ↔ ¬ Selects σ all excluded := by
  have values : (excludedClause all excluded).eval σ = true ↔
      (∃ f ∈ excluded, σ f = false) ∨ ∃ f ∈ all, f ∉ excluded ∧ σ f = true := by
    simp [excludedClause, Clause.eval]
  rw [values, Selects, not_and_or]
  simp only [not_forall, exists_prop, Bool.not_eq_true, Bool.not_eq_false]

/-! ## Engines -/

/-- The engine answers as the built-in one does, within limits that may differ from one request to
the next. -/
def Engine.ActsBuiltin (engine : Engine Id) : Prop :=
  ∀ request, ∃ maxClauses pace,
    engine.reply request = (Engine.builtin maxClauses pace : Engine Id).reply request

theorem Engine.actsBuiltin_builtin (maxClauses : Nat) (pace : Pace) :
    (Engine.builtin maxClauses pace : Engine Id).ActsBuiltin :=
  fun _ => ⟨maxClauses, pace, rfl⟩

theorem Engine.convertText_eq_ok {limits : Cnf.Limits} {expression : String} {texts : List String}
    (h : convertText limits expression = .ok texts) : ∃ e, Expr.parse expression = .ok e ∧
      texts = (Cnf.conversion e).map Clause.text := by
  unfold convertText at h
  split at h
  · cases h
  · rename_i e hparse
    split at h
    · cases h
    · rename_i cs hconvert
      obtain rfl := Cnf.eq_of_convert_eq_ok hconvert
      exact ⟨e, hparse, (Except.ok.inj h).symm⟩

/-- A normalizer lets an engine's answer through or replaces it by a failure. -/
theorem Normalizer.answer_of_settle {m : Type → Type} {n : Normalizer m} {reply : Reply}
    {texts : List String} (h : n.settle reply = .ok texts) : reply.outcome = .answered (.ok texts) := by
  unfold settle inTime at h
  cases houtcome : reply.outcome with
  | answered answer =>
    rw [houtcome] at h
    dsimp only at h
    split at h
    · cases h
    · rw [h]
  | crashed =>
    rw [houtcome] at h
    dsimp only at h
    split at h <;> cases h
  | unstarted reason =>
    rw [houtcome] at h
    cases h

/-- Whatever it is asked, a normalizer keeps its engine. -/
theorem Normalizer.engine_normalize (n : Normalizer Id) (expression : String) :
    (n.normalize expression).run.2.engine = n.engine := by
  unfold normalize
  split <;> rfl

/-- What a normalizer with a built-in engine returns is the conversion of the expression. -/
theorem Normalizer.normalize_eq_ok {n n' : Normalizer Id} {expression : String}
    {texts : List String} (builtin : n.engine.ActsBuiltin)
    (h : (n.normalize expression).run = (.ok texts, n')) :
    ∃ e, Expr.parse expression = .ok e ∧ texts = (Cnf.conversion e).map Clause.text := by
  unfold normalize request at h
  cases hparse : Expr.parse expression with
  | error fault =>
    rw [hparse] at h
    cases h
  | ok e =>
    rw [hparse] at h
    obtain ⟨hsettle, -⟩ := Prod.mk.inj h
    obtain ⟨maxClauses, pace, hreply⟩ := builtin ⟨n.tickets.ticket, expression, n.timeout⟩
    have houtcome := answer_of_settle hsettle
    rw [hreply] at houtcome
    have htexts : Engine.convertText ⟨maxClauses, pace.clock⟩ expression = .ok texts := by
      injection houtcome
    obtain ⟨e', hparse', htexts⟩ := Engine.convertText_eq_ok htexts
    exact ⟨e', hparse' ▸ hparse.symm, htexts⟩

namespace Draft

variable {d d' : Draft Id}

theorem revise_eq_ok_iff {index : FeatureSet} {change : Except Violation Model} :
    d.revise index change = (.ok (), d') ↔
      change = .ok d'.model ∧ d'.index = index ∧ d'.normalizer = d.normalizer := by
  obtain ⟨model', index', normalizer'⟩ := d'
  cases change with
  | error => simp [revise]
  | ok model =>
    constructor
    · intro h
      cases h
      exact ⟨rfl, rfl, rfl⟩
    · rintro ⟨heq, rfl, rfl⟩
      cases heq
      rfl

theorem constrain_eq_ok_iff {expression : String} :
    (d.constrain expression).run = (.ok (), d') ↔ ∃ e texts, Expr.parse expression = .ok e ∧
      (∀ f ∈ e.vars, f ∈ d.index) ∧
      (d.normalizer.normalize expression).run = (.ok texts, d'.normalizer) ∧
      d'.model = d.model.addClauses texts ∧ d'.index = d.index := by
  unfold constrain
  constructor
  · intro h
    split at h
    · cases h
    · rename_i e hparse
      split at h
      · cases h
      · rename_i hdeclared
        rw [Id.run_bind] at h
        split at h
        · cases h
        · rename_i texts normalizer hnormalize
          obtain ⟨-, rfl⟩ := Prod.mk.inj h
          exact ⟨e, texts, hparse, Rules.allDeclared_eq_ok_iff.1 hdeclared, hnormalize, rfl, rfl⟩
  · rintro ⟨e, texts, hparse, hdeclared, hnormalize, hmodel, hindex⟩
    rw [← Rules.allDeclared_eq_ok_iff] at hdeclared
    rw [hparse]
    simp only [hdeclared]
    rw [Id.run_bind, hnormalize, Id.run_pure, ← hmodel, ← hindex]

end Draft

/-! ## Edits -/

/-- The directive that asks for the edit. -/
def Edit.directive : Edit → Directive
  | .mandatory _ => .mandatory
  | .optional _ => .optional
  | .declared _ => .declared
  | .constraint _ => .constraint
  | .alternative .. => .alternative
  | .excluded _ => .excluded

/-- What an edit asks of an assignment, where `all` are the features there are. -/
def Edit.Holds (σ : Assignment) (all : List Feature) : Edit → Prop
  | .constraint expression => ∃ e, Expr.parse expression = .ok e ∧ e.eval σ = true
  | .excluded listed => ¬ Selects σ all listed
  | _ => True

namespace Draft

variable {d d' : Draft Id} {edit : Edit}

theorem engine_of_apply (h : (d.apply edit).run = (.ok (), d')) :
    d'.normalizer.engine = d.normalizer.engine := by
  cases edit with
  | constraint expression =>
    obtain ⟨e, texts, -, -, hnormalize, -⟩ := constrain_eq_ok_iff.1 h
    rw [← d.normalizer.engine_normalize expression, hnormalize]
  | _ => rw [(revise_eq_ok_iff.1 h).2.2]

/-- An exclusion is about the features that are there, and adds none. -/
theorem features_of_apply_excluded {listed : List Feature}
    (h : (d.apply (.excluded listed)).run = (.ok (), d')) :
    d'.model.features = d.model.features := by
  obtain ⟨-, hmodel⟩ := Model.addExcluded_eq_ok_iff.1 (revise_eq_ok_iff.1 h).1
  rw [hmodel]

/-- The constraints of the second draft are those of the first, then the texts of clauses, none of
them empty, that hold together exactly where it holds what was `asked`. -/
def Adds (d d' : Draft Id) (asked : Assignment → Prop) : Prop :=
  ∃ cs : List Clause, (∀ c ∈ cs, c.literals ≠ []) ∧
    d'.model.constraints = d.model.constraints ++ cs.map Clause.text ∧
    ∀ σ, Clause.evalAll σ cs = true ↔ asked σ

theorem adds_of_same_constraints (h : d'.model.constraints = d.model.constraints) :
    d.Adds d' fun _ => True :=
  ⟨[], by simp, by simp [h], by simp⟩

/-- An accepted edit adds what it asks for, over the features that are there before it. -/
theorem adds_of_apply (builtin : d.normalizer.engine.ActsBuiltin)
    (h : (d.apply edit).run = (.ok (), d')) : d.Adds d' (edit.Holds · d.model.features) := by
  cases edit with
  | mandatory f =>
    obtain ⟨-, hmodel⟩ := Model.addMandatory_eq_ok_iff.1 (revise_eq_ok_iff.1 h).1
    exact adds_of_same_constraints (by rw [hmodel])
  | optional f =>
    obtain ⟨-, hmodel⟩ := Model.addOptional_eq_ok_iff.1 (revise_eq_ok_iff.1 h).1
    exact adds_of_same_constraints (by rw [hmodel])
  | declared f =>
    obtain ⟨-, hmodel⟩ := Model.addDeclared_eq_ok_iff.1 (revise_eq_ok_iff.1 h).1
    exact adds_of_same_constraints (by rw [hmodel])
  | alternative parent children =>
    obtain ⟨-, hmodel⟩ := Model.addAlternative_eq_ok_iff.1 (revise_eq_ok_iff.1 h).1
    exact adds_of_same_constraints (by rw [hmodel])
  | constraint expression =>
    obtain ⟨e, texts, hparse, -, hnormalize, hmodel, -⟩ := constrain_eq_ok_iff.1 h
    obtain ⟨e', hparse', rfl⟩ := Normalizer.normalize_eq_ok builtin hnormalize
    obtain rfl : e = e' := Except.ok.inj (hparse.symm.trans hparse')
    refine ⟨Cnf.conversion e, fun _ => Cnf.literals_ne_nil_of_mem_conversion, ?_, fun σ => ?_⟩
    · rw [hmodel, Model.addClauses]
    · simp [Edit.Holds, hparse, Cnf.evalAll_conversion]
  | excluded listed =>
    obtain ⟨⟨nonempty, -, -⟩, hmodel⟩ :=
      Model.addExcluded_eq_ok_iff.1 (revise_eq_ok_iff.1 h).1
    refine ⟨[Encoding.excludedClause d.model.features listed], ?_, ?_, fun σ => ?_⟩
    · simp [Encoding.excludedClause, nonempty]
    · rw [hmodel]
      rfl
    · show _ ↔ ¬ Selects σ d.model.features listed
      rw [← Encoding.eval_excludedClause_iff]
      simp [Clause.evalAll]

end Draft

end ProductLine
