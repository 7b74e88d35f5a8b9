/- # What one change does to a model

Each operation on a model either breaks a rule or appends to the lists that
it is about and leaves the others alone.  There is one lemma for each of
them, which says when it succeeds and with which model; nothing that is
proved of sources or of sequences of edits opens an operation again.
-/
import ProductLine.Model.Basic

namespace ProductLine

/-- A step and what comes next succeed together. -/
theorem bind_eq_ok_iff {ε α β : Type} {step : Except ε α} {next : α → Except ε β} {b : β} :
    (step >>= next) = .ok b ↔ ∃ a, step = .ok a ∧ next a = .ok b := by
  cases step with
  | error => simp [bind, Except.bind]
  | ok a => simp [bind, Except.bind]

/-- All steps succeed, each with its result. -/
theorem mapM_eq_ok_iff {ε α β : Type} {f : α → Except ε β} {xs : List α} {ys : List β} :
    xs.mapM f = .ok ys ↔ xs.map f = ys.map .ok := by
  induction xs generalizing ys with
  | nil => cases ys <;> simp [pure, Except.pure]
  | cons x xs ih =>
    rw [List.mapM_cons, bind_eq_ok_iff]
    constructor
    · rintro ⟨y, hy, h⟩
      obtain ⟨ys', hys, h⟩ := bind_eq_ok_iff.mp h
      cases h
      rw [List.map_cons, List.map_cons, hy, ih.mp hys]
    · intro h
      cases ys with
      | nil => cases h
      | cons y ys =>
        obtain ⟨hy, hys⟩ := List.cons.inj h
        exact ⟨y, hy, bind_eq_ok_iff.mpr ⟨ys, ih.mpr hys, rfl⟩⟩

namespace Model

variable {m m' : Model} {index : FeatureSet} {f : Feature} {fs : List Feature}

theorem addDeclared_eq_ok_iff : m.addDeclared index f = .ok m' ↔
    f ∉ index ∧ m' = { m with features := m.features ++ [f] } := by
  unfold addDeclared
  rw [bind_eq_ok_iff]
  constructor
  · rintro ⟨_, fresh, h⟩
    exact ⟨Rules.undeclared_eq_ok_iff.1 fresh, (Except.ok.inj h).symm⟩
  · rintro ⟨fresh, rfl⟩
    exact ⟨(), Rules.undeclared_eq_ok_iff.2 fresh, rfl⟩

theorem addMandatory_eq_ok_iff : m.addMandatory index f = .ok m' ↔ f ∉ index ∧
    m' = { m with features := m.features ++ [f], mandatory := m.mandatory ++ [f] } := by
  unfold addMandatory
  rw [bind_eq_ok_iff]
  constructor
  · rintro ⟨_, declared, h⟩
    obtain ⟨fresh, rfl⟩ := addDeclared_eq_ok_iff.1 declared
    exact ⟨fresh, (Except.ok.inj h).symm⟩
  · rintro ⟨fresh, rfl⟩
    exact ⟨_, addDeclared_eq_ok_iff.2 ⟨fresh, rfl⟩, rfl⟩

theorem addOptional_eq_ok_iff : m.addOptional index f = .ok m' ↔ f ∉ index ∧
    m' = { m with features := m.features ++ [f], optional := m.optional ++ [f] } := by
  unfold addOptional
  rw [bind_eq_ok_iff]
  constructor
  · rintro ⟨_, declared, h⟩
    obtain ⟨fresh, rfl⟩ := addDeclared_eq_ok_iff.1 declared
    exact ⟨fresh, (Except.ok.inj h).symm⟩
  · rintro ⟨fresh, rfl⟩
    exact ⟨_, addDeclared_eq_ok_iff.2 ⟨fresh, rfl⟩, rfl⟩

theorem ownsNoGroup_eq_ok_iff : m.ownsNoGroup f = .ok () ↔ m.alternativeOf? f = none := by
  unfold ownsNoGroup
  cases m.alternativeOf? f <;> simp

theorem addAlternative_eq_ok_iff : m.addAlternative index f fs = .ok m' ↔
    (f ∈ index ∧ m.alternativeOf? f = none ∧ fs ≠ [] ∧ fs.Nodup ∧ ∀ g ∈ fs, g ∈ index) ∧
    m' = { m with alternatives := m.alternatives ++ [⟨f, fs⟩] } := by
  unfold addAlternative
  simp only [bind_eq_ok_iff]
  constructor
  · rintro ⟨_, declared, _, free, _, nonempty, _, distinct, _, all, h⟩
    exact ⟨⟨Rules.declared_eq_ok_iff.1 declared, ownsNoGroup_eq_ok_iff.1 free,
      Rules.nonEmpty_eq_ok_iff.1 nonempty, Rules.distinct_eq_ok_iff.1 distinct,
      Rules.allDeclared_eq_ok_iff.1 all⟩, (Except.ok.inj h).symm⟩
  · rintro ⟨⟨declared, free, nonempty, distinct, all⟩, rfl⟩
    exact ⟨(), Rules.declared_eq_ok_iff.2 declared, (), ownsNoGroup_eq_ok_iff.2 free,
      (), Rules.nonEmpty_eq_ok_iff.2 nonempty, (), Rules.distinct_eq_ok_iff.2 distinct,
      (), Rules.allDeclared_eq_ok_iff.2 all, rfl⟩

theorem addExcluded_eq_ok_iff : m.addExcluded index fs = .ok m' ↔
    (fs ≠ [] ∧ fs.Nodup ∧ ∀ g ∈ fs, g ∈ index) ∧
    m' = { m with
      constraints := m.constraints ++ [(Encoding.excludedClause m.features fs).text] } := by
  unfold addExcluded
  simp only [bind_eq_ok_iff]
  constructor
  · rintro ⟨_, nonempty, _, distinct, _, all, h⟩
    exact ⟨⟨Rules.nonEmpty_eq_ok_iff.1 nonempty, Rules.distinct_eq_ok_iff.1 distinct,
      Rules.allDeclared_eq_ok_iff.1 all⟩, (Except.ok.inj h).symm⟩
  · rintro ⟨⟨nonempty, distinct, all⟩, rfl⟩
    exact ⟨(), Rules.nonEmpty_eq_ok_iff.2 nonempty, (), Rules.distinct_eq_ok_iff.2 distinct,
      (), Rules.allDeclared_eq_ok_iff.2 all, rfl⟩

end Model

end ProductLine
