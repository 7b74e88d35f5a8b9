/- # What a compiled source means — its constraints are those of its lines

A `constraint` line asks that its expression be true, and an `excluded` line
forbids one configuration of the features of the *finished* model.  The
clauses of a compiled source, read from their texts, ask for exactly this
(`Source.holds_constraints_iff`).

The clause of an `excluded` line is written when the line is read, over the
features declared so far.  It is right about the finished model because of
the phases, and this is where the order of the lines matters: before the
first exclusion no statement read so far is about all features, so a new
feature changes the meaning of none; and from the first exclusion on, no line
adds a feature.  `Means` carries this along with the clauses found so far.
-/
import ProductLine.Proofs.ClauseText
import ProductLine.Proofs.Draft
import ProductLine.Proofs.Source.Run

namespace ProductLine

namespace Statement

/-- What a statement asks of an assignment, where `all` are the features of the model. -/
def Holds (σ : Assignment) (all : List Feature) : Statement → Prop
  | directive .constraint arguments =>
    ∃ e, Expr.parse (String.ofList arguments) = .ok e ∧ e.eval σ = true
  | directive .excluded arguments =>
    ∃ listed, features arguments = .ok listed ∧ ¬ Selects σ all listed
  | _ => True

/-- The statement can be read as far as its meaning depends on it. -/
def Understood : Statement → Prop
  | unknown _ => False
  | directive .constraint arguments => ∃ e, Expr.parse (String.ofList arguments) = .ok e
  | directive .excluded arguments => ∃ listed, features arguments = .ok listed
  | _ => True

variable {σ : Assignment} {all all' : List Feature} {d : Directive} {arguments : List Char}
  {edit : Edit}

/-- Only an exclusion is about all features. -/
theorem holds_iff_of_ne_excluded {s : Statement}
    (h : ∀ arguments, s ≠ .directive .excluded arguments) : s.Holds σ all ↔ s.Holds σ all' := by
  cases s with
  | skipped => rfl
  | unknown => rfl
  | directive d arguments =>
    cases d with
    | excluded => exact absurd rfl (h arguments)
    | _ => rfl

theorem directive_of_edit (h : Statement.edit d arguments = .ok edit) : edit.directive = d := by
  unfold Statement.edit at h
  cases d with
  | constraint =>
    cases h
    rfl
  | alternative =>
    cases hlist : features arguments with
    | error => rw [hlist] at h; cases h
    | ok fs =>
      rw [hlist] at h
      cases fs <;> cases h
      rfl
  | excluded =>
    cases hlist : features arguments with
    | error => rw [hlist] at h; cases h
    | ok fs =>
      rw [hlist] at h
      cases h
      rfl
  | _ =>
    cases hname : singleFeature arguments with
    | error => rw [hname] at h; cases h
    | ok f =>
      rw [hname] at h
      cases h
      rfl

theorem edit_excluded_eq_ok_iff : Statement.edit .excluded arguments = .ok edit ↔
    ∃ listed, features arguments = .ok listed ∧ edit = .excluded listed := by
  unfold Statement.edit
  cases features arguments with
  | error => simp [Except.mapError, Except.map]
  | ok listed => simp [Except.mapError, Except.map, eq_comm]

/-- A directive asks for what its edit asks for. -/
theorem holds_directive_iff (h : Statement.edit d arguments = .ok edit) :
    (directive d arguments).Holds σ all ↔ edit.Holds σ all := by
  cases d with
  | constraint =>
    obtain rfl := Except.ok.inj h
    rfl
  | excluded =>
    obtain ⟨listed, hlisted, rfl⟩ := edit_excluded_eq_ok_iff.1 h
    simp [Holds, Edit.Holds, hlisted]
  | _ =>
    have same := directive_of_edit h
    cases edit <;> first | rfl | cases same

end Statement

namespace Compilation

/-- The draft holds what the statements read so far ask for, and the phase is that after them. -/
structure Means (c : Compilation Id) (read : List Statement) : Prop where
  builtin : c.draft.normalizer.engine.ActsBuiltin
  understood : ∀ s ∈ read, s.Understood
  unlocked : c.phase ≠ .exclusionLocked → ∀ arguments, .directive .excluded arguments ∉ read
  clauses : ∃ cs : List Clause, (∀ c ∈ cs, c.literals ≠ []) ∧
    c.draft.model.constraints = cs.map Clause.text ∧
    ∀ σ, Clause.evalAll σ cs = true ↔ ∀ s ∈ read, s.Holds σ c.draft.model.features

variable {c c' : Compilation Id} {read : List Statement}

theorem means_start {name : String} {n : Normalizer Id} (builtin : n.engine.ActsBuiltin) :
    (start name n).Means [] where
  builtin := builtin
  understood := by simp
  unlocked := by simp
  clauses := ⟨[], by simp, rfl, by simp⟩

/-- A directive that the phase admits leaves alone what the statements before it ask for: it adds
no features, or none of them is about all features. -/
theorem Means.holds_iff_of_perform {d : Directive} {edit : Edit} {draft : Draft Id}
    {arguments : List Char} (means : c.Means read)
    (admitted : c.phase = .exclusionLocked → d = .excluded)
    (hedit : Statement.edit d arguments = .ok edit)
    (happly : (c.draft.apply edit).run = (.ok (), draft)) {s : Statement} (hs : s ∈ read)
    {σ : Assignment} :
    s.Holds σ draft.model.features ↔ s.Holds σ c.draft.model.features := by
  by_cases locked : c.phase = .exclusionLocked
  case pos =>
    obtain rfl := admitted locked
    obtain ⟨listed, -, rfl⟩ := Statement.edit_excluded_eq_ok_iff.1 hedit
    rw [Draft.features_of_apply_excluded happly]
  case neg =>
    refine Statement.holds_iff_of_ne_excluded fun args heq => ?_
    exact means.unlocked locked args (heq ▸ hs)

theorem understood_of_apply {d : Directive} {edit : Edit} {before after : Draft Id}
    {arguments : List Char} (hedit : Statement.edit d arguments = .ok edit)
    (happly : (before.apply edit).run = (.ok (), after)) :
    (Statement.directive d arguments).Understood := by
  cases d with
  | constraint =>
    cases hedit
    obtain ⟨e, _, hparse, -⟩ := Draft.constrain_eq_ok_iff.1 happly
    exact ⟨e, hparse⟩
  | excluded =>
    obtain ⟨listed, hlisted, -⟩ := Statement.edit_excluded_eq_ok_iff.1 hedit
    exact ⟨listed, hlisted⟩
  | _ => trivial

/-- The statement of an accepted directive asks, over the features there are then, for what its edit
asked for, over the features before it. -/
theorem holds_of_apply {d : Directive} {edit : Edit} {before after : Draft Id}
    {arguments : List Char} (hedit : Statement.edit d arguments = .ok edit)
    (happly : (before.apply edit).run = (.ok (), after)) {σ : Assignment} :
    (Statement.directive d arguments).Holds σ after.model.features ↔
      edit.Holds σ before.model.features := by
  rw [← Statement.holds_directive_iff hedit]
  by_cases hd : d = .excluded
  case pos =>
    subst hd
    obtain ⟨listed, -, rfl⟩ := Statement.edit_excluded_eq_ok_iff.1 hedit
    rw [Draft.features_of_apply_excluded happly]
  case neg =>
    refine Statement.holds_iff_of_ne_excluded fun args heq => hd ?_
    injection heq

theorem phaseAfter_ne_exclusionLocked {phase : Phase} {d : Directive}
    (h : phaseAfter phase d ≠ .exclusionLocked) : phase ≠ .exclusionLocked ∧ d ≠ .excluded := by
  unfold phaseAfter at h
  split at h
  · exact absurd rfl h
  · exact ⟨h, ‹_›⟩

theorem Means.skip (means : c.Means read) : c.Means (read ++ [.skipped]) where
  builtin := means.builtin
  understood := List.forall_mem_append.2 ⟨means.understood, by simp [Statement.Understood]⟩
  unlocked := by simpa using means.unlocked
  clauses := by
    obtain ⟨cs, nonempty, htexts, hcs⟩ := means.clauses
    refine ⟨cs, nonempty, htexts, fun σ => ?_⟩
    rw [hcs, List.forall_mem_append, List.forall_mem_singleton]
    exact (and_iff_left trivial).symm

theorem Means.perform {d : Directive} {arguments : List Char} (means : c.Means read)
    (h : (c.perform d arguments).run = (.ok (), c')) :
    c'.Means (read ++ [.directive d arguments]) := by
  obtain ⟨admitted, edit, draft, hedit, happly, rfl⟩ := perform_eq_ok_iff.1 h
  obtain ⟨cs, nonempty, htexts, hcs⟩ := means.clauses
  obtain ⟨ds, nonempty', htexts', hds⟩ := Draft.adds_of_apply means.builtin happly
  constructor
  case builtin =>
    intro request
    rw [Draft.engine_of_apply happly]
    exact means.builtin request
  case understood =>
    refine List.forall_mem_append.2 ⟨means.understood, ?_⟩
    rw [List.forall_mem_singleton]
    exact understood_of_apply hedit happly
  case unlocked =>
    intro unlocked args hmem
    obtain ⟨before, other⟩ := phaseAfter_ne_exclusionLocked unlocked
    rcases List.mem_append.1 hmem with hmem | hmem
    · exact means.unlocked before args hmem
    · cases List.mem_singleton.1 hmem
      exact other rfl
  case clauses =>
    refine ⟨cs ++ ds, List.forall_mem_append.2 ⟨nonempty, nonempty'⟩, ?_, fun σ => ?_⟩
    · rw [htexts', htexts, List.map_append]
    · rw [Clause.evalAll_append, Bool.and_eq_true, hcs, hds, List.forall_mem_append,
        List.forall_mem_singleton, holds_of_apply hedit happly]
      exact and_congr_left' (forall₂_congr fun s hs =>
        (means.holds_iff_of_perform admitted hedit happly hs).symm)

/-- Every accepted line keeps the draft in step with the statements. -/
theorem Means.feed {line : List Char} (means : c.Means read)
    (h : (c.feed line).run = (.ok (), c')) :
    c'.Means (read ++ [Statement.ofLine line]) := by
  rcases feed_eq_ok_iff.1 h with ⟨hline, rfl⟩ | ⟨d, arguments, hline, hperform⟩
  · rw [hline]
    exact means.skip
  · rw [hline]
    exact means.perform hperform

end Compilation

/-- The texts of a compiled source's constraints are texts of clauses, and an assignment satisfies
all of these if and only if it satisfies every line of the source, `excluded` lines being about the
features of the finished model. -/
theorem Source.holds_constraints_iff {n : Normalizer Id} {name source : String} {model : Model}
    (builtin : n.engine.ActsBuiltin)
    (accepted : (Source.compileText name n source).run = .ok model) :
    (∀ s ∈ Source.statements source, s.Understood) ∧
    (∀ text ∈ model.constraints, ∃ c, Clause.ofText? text = some c) ∧
    ∀ σ, (∀ text ∈ model.constraints, ∃ c, Clause.ofText? text = some c ∧ c.eval σ = true) ↔
      ∀ s ∈ Source.statements source, s.Holds σ model.features := by
  obtain ⟨final, hrun, rfl⟩ := Source.compileText_eq_ok_iff.1 accepted
  have means : final.Means ([] ++ Source.statements source) :=
    Compilation.feedLines_invariant Compilation.Means.feed (Compilation.means_start builtin) hrun
  rw [List.nil_append] at means
  obtain ⟨cs, nonempty, htexts, hcs⟩ := means.clauses
  have read : ∀ c ∈ cs, Clause.ofText? c.text = some c := fun c hc =>
    Clause.ofText?_text (nonempty c hc)
  refine ⟨means.understood, ?_, fun σ => ?_⟩
  · rw [htexts, List.forall_mem_map]
    exact fun c hc => ⟨c, read c hc⟩
  · rw [← hcs, htexts, List.forall_mem_map, Clause.evalAll, List.all_eq_true]
    refine forall₂_congr fun c hc => ?_
    simp [read c hc]

namespace Sample

open Cnf.Sample

/-- Two features, a condition on them, and one configuration that is forbidden. -/
def locked : String :=
  "%% two features\nmandatory A\noptional B\n\nconstraint !(!A & !B)\nexcluded A\n"

/-- Its clauses are that of the constraint and that of the exclusion, which `B` is part of too. -/
def lockedModel : Model where
  name := "m"
  features := [a, b]
  mandatory := [a]
  optional := [b]
  constraints := ["A | B", "!A | B"]

end Sample

open Sample in
theorem Source.holds_constraints_locked :
    (Source.compileText "m" (.default { family := 0 } : Normalizer Id) locked).run =
        .ok lockedModel ∧
      (∀ s ∈ Source.statements locked, s.Understood) ∧
      (∀ text ∈ lockedModel.constraints, ∃ c, Clause.ofText? text = some c) ∧
      ∀ σ, (∀ text ∈ lockedModel.constraints, ∃ c, Clause.ofText? text = some c ∧
          c.eval σ = true) ↔
        ∀ s ∈ Source.statements locked, s.Holds σ lockedModel.features := by
  have accepted : (Source.compileText "m" (.default { family := 0 } : Normalizer Id) locked).run =
      .ok lockedModel := by
    decide +kernel
  have builtin : (Normalizer.default { family := 0 } : Normalizer Id).engine.ActsBuiltin :=
    Engine.actsBuiltin_builtin _ _
  exact ⟨accepted, Source.holds_constraints_iff builtin accepted⟩

end ProductLine
