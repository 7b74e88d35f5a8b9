/- # Verdicts — what is said of a group, an exclusion or a constraint

Of a draft whose lists fit together three edits are judged here in full.  A
group and an exclusion go by rules in an order, and what is reported is the
report of the first broken one (`Draft.Settles`); the rules speak of the
features as a list, which the index is by well-formedness.  A constraint is
looked at in three steps, each of which ends it: its text has to be an
expression, then the leftmost name in it that is not declared is blamed, and
only then the engine is asked.

Between the second step and the engine the text is read once more, and by the
built-in engine once again.  The readings agree, so that neither can call it
malformed any more, and all that is left for the built-in engine to fail of is
time.
-/
import ProductLine.Proofs.Draft.WellFormed
import ProductLine.Proofs.Expr.Names

namespace ProductLine

/-! ## The built-in engine -/

theorem Engine.eq_timeout_of_convertText {limits : Cnf.Limits} {text : String} {e : Expr}
    {failure : EngineFailure} (hparse : Expr.parse text = .ok e)
    (h : convertText limits text = .error failure) : ∃ reason, failure = .timeout reason := by
  rw [convertText, hparse] at h
  dsimp only at h
  split at h
  case h_1 cutoff _ => exact ⟨cutoff.message, (Except.error.inj h).symm⟩
  case h_2 => cases h

/-- An answer that comes too late is a timeout; any other one is let through. -/
theorem Normalizer.eq_timeout_of_settle {m : Type → Type} {n : Normalizer m} {elapsed : Duration}
    {answer : Except EngineFailure (List String)} {failure : EngineFailure}
    (late : ∀ failure, answer = .error failure → ∃ reason, failure = .timeout reason)
    (h : n.settle ⟨.answered answer, elapsed⟩ = .error failure) :
    ∃ reason, failure = .timeout reason := by
  change n.inTime elapsed answer = .error failure at h
  unfold inTime at h
  split at h
  case isTrue => exact ⟨_, (Except.error.inj h).symm⟩
  case isFalse => exact late failure h

namespace Draft

variable {m : Type → Type} [Monad m]

/-- The edit asks no engine.  It is accepted where it is admitted, and otherwise refused for the
first broken one of the rules. -/
def Settles (d : Draft m) (edit : Edit) (admitted : Prop) (rules : List Rule) : Prop :=
  ∃ r, d.apply edit = pure r ∧ (r.1 = .ok () ↔ admitted) ∧
    ∀ fault, r.1 = .error fault ↔ ∃ v, Reports rules v ∧ fault = .violation v

/-- What the asker makes of an engine's reply to a constraint. -/
def answered (d : Draft m) (reply : Reply) : Except ModelFault Unit :=
  match d.normalizer.settle reply with
  | .ok _ => .ok ()
  | .error failure => .error (.engine failure)

/-- What becomes of a group, of an exclusion and of a constraint.  If the text of a constraint is an
expression, either the leftmost name in it that is not declared is blamed, or there is none and the
result is what the engine's reply amounts to. -/
structure Accountable (d : Draft m) : Prop where
  alternative : ∀ parent children, d.Settles (.alternative parent children)
    (parent ∈ d.model.features ∧ (∀ g ∈ d.model.alternatives, g.parent ≠ parent) ∧
      children ≠ [] ∧ children.Nodup ∧ ∀ f ∈ children, f ∈ d.model.features)
    [.declared d.model.features parent, .ownsNoGroup d.model.alternatives parent,
      .nonEmpty children .alternative, .distinct children, .allDeclared d.model.features children]
  excluded : ∀ listed, d.Settles (.excluded listed)
    (listed ≠ [] ∧ listed.Nodup ∧ ∀ f ∈ listed, f ∈ d.model.features)
    [.nonEmpty listed .excluded, .distinct listed, .allDeclared d.model.features listed]
  malformed : ∀ text fault, Expr.parse text = .error fault →
    d.apply (.constraint text) = pure (.error (.engine (.ofSyntax fault)), d)
  constraint : ∀ text e, Expr.parse text = .ok e →
    (∃ f, FirstNamed (· ∉ d.model.features) text.toList f ∧
      d.apply (.constraint text) = pure (.error (.violation (.unknownFeature f)), d)) ∨
    ((∀ column f, NameAt text.toList column f → f ∈ d.model.features) ∧
      Prod.fst <$> d.apply (.constraint text) =
        d.answered <$> d.normalizer.engine.reply
          ⟨d.normalizer.tickets.ticket, text, d.normalizer.timeout⟩)

theorem settles_of_revise {d : Draft m} {edit : Edit} {admitted : Prop} {rules : List Rule}
    {change : Except Violation Model} {index : FeatureSet}
    (applied : d.apply edit = pure (d.revise index change))
    (accepts : (∃ model, change = .ok model) ↔ admitted) (enforces : Enforces rules change) :
    d.Settles edit admitted rules := by
  refine ⟨_, applied, ?_, fun fault => ?_⟩
  · rw [← accepts]
    cases change <;> simp [revise]
  · simp only [← enforces _]
    cases change <;> simp [revise, eq_comm]

theorem WellFormed.settles_alternative {d : Draft m} (h : d.WellFormed) (parent : Feature)
    (children : List Feature) : d.Settles (.alternative parent children)
      (parent ∈ d.model.features ∧ (∀ g ∈ d.model.alternatives, g.parent ≠ parent) ∧
        children ≠ [] ∧ children.Nodup ∧ ∀ f ∈ children, f ∈ d.model.features)
      [.declared d.model.features parent, .ownsNoGroup d.model.alternatives parent,
        .nonEmpty children .alternative, .distinct children,
        .allDeclared d.model.features children] := by
  refine settles_of_revise rfl ?_ (Model.enforces_addAlternative h.mem_index_iff parent children)
  have free : d.model.alternativeOf? parent = none ↔
      ∀ g ∈ d.model.alternatives, g.parent ≠ parent := by
    rw [Model.alternativeOf?_eq_none_iff]
    simp
  simp only [Model.addAlternative_eq_ok_iff, exists_and_left, exists_eq, and_true, free,
    h.mem_index_iff]

theorem WellFormed.settles_excluded {d : Draft m} (h : d.WellFormed) (listed : List Feature) :
    d.Settles (.excluded listed)
      (listed ≠ [] ∧ listed.Nodup ∧ ∀ f ∈ listed, f ∈ d.model.features)
      [.nonEmpty listed .excluded, .distinct listed, .allDeclared d.model.features listed] := by
  refine settles_of_revise rfl ?_ (Model.enforces_addExcluded h.mem_index_iff listed)
  simp only [Model.addExcluded_eq_ok_iff, exists_and_left, exists_eq, and_true, h.mem_index_iff]

theorem WellFormed.constrain_eq [LawfulMonad m] {d : Draft m} (h : d.WellFormed) {text : String}
    {e : Expr} (hparse : Expr.parse text = .ok e) :
    (∃ f, FirstNamed (· ∉ d.model.features) text.toList f ∧
      d.constrain text = pure (.error (.violation (.unknownFeature f)), d)) ∨
    ((∀ column f, NameAt text.toList column f → f ∈ d.model.features) ∧
      Prod.fst <$> d.constrain text =
        d.answered <$> d.normalizer.engine.reply
          ⟨d.normalizer.tickets.ticket, text, d.normalizer.timeout⟩) := by
  obtain ⟨named, first⟩ := Expr.names_of_parse hparse
  unfold constrain
  rw [hparse]
  dsimp only
  cases hdeclared : Rules.allDeclared d.index e.vars with
  | error v =>
    have reported := (Rules.enforces_allDeclared h.mem_index_iff e.vars v).mp hdeclared
    obtain ⟨f, least, rfl⟩ := reports_singleton_iff.mp reported
    exact .inl ⟨f, first _ f least, rfl⟩
  | ok _ =>
    refine .inr ⟨fun column f hname => ?_, ?_⟩
    · have all := Rules.allDeclared_eq_ok_iff.mp hdeclared
      exact (h.mem_index_iff f).mp (all f (named column f hname))
    · rw [Normalizer.normalize, Normalizer.request, hparse]
      simp only [Except.map, bind_assoc, pure_bind, map_bind, map_eq_pure_bind d.answered]
      refine congrArg _ (funext fun reply => ?_)
      unfold answered
      cases d.normalizer.settle reply <;> rw [map_pure]

theorem WellFormed.accountable [LawfulMonad m] {d : Draft m} (h : d.WellFormed) :
    d.Accountable where
  alternative := h.settles_alternative
  excluded := h.settles_excluded
  malformed text fault hparse := by rw [apply, constrain, hparse]
  constraint _ _ := h.constrain_eq

/-! ## Every reachable draft -/

/-- The engine of a draft is the one that it was given. -/
theorem actsBuiltin_run {n : Normalizer Id} (name : String) (builtin : n.engine.ActsBuiltin)
    (edits : List Edit) :
    ((empty name n).applyAll edits).run.2.normalizer.engine.ActsBuiltin := by
  have step (d : Draft Id) (edit : Edit) (h : d.normalizer.engine.ActsBuiltin) :
      SatisfiesM (fun outcome => outcome.2.normalizer.engine.ActsBuiltin) (d.apply edit) :=
    satisfiesM_id_iff.mpr ((outcome_apply d edit).engine ▸ h)
  have start : (empty name n).normalizer.engine.ActsBuiltin := builtin
  have kept := satisfiesM_id_iff.mp (satisfies_applyAll step edits start)
  exact kept

theorem WellFormed.eq_timeout {d : Draft Id} (h : d.WellFormed)
    (builtin : d.normalizer.engine.ActsBuiltin) {text : String} {e : Expr} {failure : EngineFailure}
    (hparse : Expr.parse text = .ok e)
    (hfailure : (d.apply (.constraint text)).run.1 = .error (.engine failure)) :
    ∃ reason, failure = .timeout reason := by
  change (d.constrain text).run.1 = _ at hfailure
  rcases h.constrain_eq hparse with ⟨f, -, refused⟩ | ⟨-, asked⟩
  · rw [refused] at hfailure
    cases hfailure
  · obtain ⟨maxClauses, pace, hreply⟩ :=
      builtin ⟨d.normalizer.tickets.ticket, text, d.normalizer.timeout⟩
    have said : (d.constrain text).run.1 = d.answered
        ⟨.answered (Engine.convertText ⟨maxClauses, pace.clock⟩ text), pace.elapsed⟩ := by
      rw [hreply] at asked
      exact asked
    rw [said, answered] at hfailure
    split at hfailure
    case h_1 => cases hfailure
    case h_2 failure' hsettle =>
      obtain rfl : failure' = failure := by
        injection hfailure with same
        injection same
      exact Normalizer.eq_timeout_of_settle
        (fun _ => Engine.eq_timeout_of_convertText hparse) hsettle

/-- Whatever the engine is and whatever it does: after any edits, what becomes of a group, of an
exclusion and of a constraint is as `Accountable` says, down to the feature that is blamed.  With
the built-in engine, a text that is an expression over declared features can fail of nothing but
time. -/
theorem accountable_applyAll (name : String) (edits : List Edit) :
    (∀ (m : Type → Type) [Monad m] [LawfulMonad m] (n : Normalizer m),
      SatisfiesM (fun run => run.2.Accountable) ((empty name n).applyAll edits)) ∧
    ∀ n : Normalizer Id, n.engine.ActsBuiltin → ∀ text e failure, Expr.parse text = .ok e →
      (((empty name n).applyAll edits).run.2.apply (.constraint text)).run.1 =
        .error (.engine failure) → ∃ reason, failure = .timeout reason := by
  constructor
  · intro m _ _ n
    exact (satisfies_wellFormed name n edits).imp WellFormed.accountable
  · intro n builtin text e failure
    exact (wellFormed_run name n edits).eq_timeout (actsBuiltin_run name builtin edits)

namespace Sample

/-- A feature that none of the edits declares. -/
def stranger : Feature := ⟨"Z", by decide⟩

/-- The normalizer of an engine that is out of time from the start. -/
def hurried : Normalizer Id where
  engine := .builtin Cnf.defaultMaxClauses { clock := .expired }
  timeout := Normalizer.defaultTimeout
  tickets := { family := 0 }

/-- The draft of that normalizer after the first two edits. -/
def latecomer : Draft Id :=
  ((empty "m" hurried).applyAll (edits.take 2)).run.2

open Cnf.Sample in
theorem apply_latecomer : (latecomer.apply (.constraint "A & B")).run.1 =
    .error (.engine (.ofCutoff .deadline)) := by
  have hparse : Expr.parse "A & B" = .ok (.and (.var a) (.var b)) := by cbv
  have hdeclared : Rules.allDeclared latecomer.index (Expr.and (.var a) (.var b)).vars = .ok () := by
    cbv
  have hconvert : Cnf.convert ⟨Cnf.defaultMaxClauses, .expired⟩ (.and (.var a) (.var b)) =
      .error .deadline := by cbv
  have htext : Engine.convertText ⟨Cnf.defaultMaxClauses, .expired⟩ "A & B" =
      .error (.ofCutoff .deadline) := by
    rw [Engine.convertText, hparse]
    simp only [hconvert]
  have settled : hurried.settle
      ⟨.answered (Engine.convertText ⟨Cnf.defaultMaxClauses, .expired⟩ "A & B"), .zero⟩ =
        .error (.ofCutoff .deadline) := by
    rw [htext]
    rfl
  have normalized : (hurried.normalize "A & B").run =
      (.error (.ofCutoff .deadline), hurried.advance) := by
    rw [Normalizer.normalize, Normalizer.request, hparse, ← settled]
    rfl
  have hnormalizer : latecomer.normalizer = hurried := rfl
  change (latecomer.constrain "A & B").run.1 = _
  rw [constrain, hparse]
  dsimp only
  rw [hdeclared]
  dsimp only
  rw [hnormalizer, Id.run_bind, normalized]
  rfl

end Sample

open Draft.Sample Cnf.Sample in
theorem accountable_sample :
    (run.2.apply (.alternative b [a, a, c])).run.1 = .error (.violation (.duplicateFeature a)) ∧
      FirstNamed (· ∉ [a, b]) "!(B | Z) & C & A".toList stranger ∧
      (run.2.apply (.constraint "!(B | Z) & C & A")).run.1 =
        .error (.violation (.unknownFeature stranger)) ∧
      (latecomer.apply (.constraint "A & B")).run.1 = .error (.engine (.ofCutoff .deadline)) ∧
      ∃ reason, EngineFailure.ofCutoff .deadline = .timeout reason := by
  have kept := satisfiesM_id_iff.mp ((accountable_applyAll "m" edits).1 Id asker)
  have accountable : run.2.Accountable := kept
  have hmodel : run.2.model = edited := by cbv
  have named : (run.2.apply (.constraint "!(B | Z) & C & A")).run.1 =
      .error (.violation (.unknownFeature stranger)) := by cbv
  refine ⟨?group, ?first, named, apply_latecomer, ?late⟩
  case group =>
    have settles := accountable.alternative b [a, a, c]
    rw [hmodel] at settles
    obtain ⟨r, applied, -, refused⟩ := settles
    have first : FirstRepeated [] [a, a, c] a :=
      ⟨[a], [c], rfl, by decide, by decide, .inl (by decide)⟩
    rw [applied]
    refine (refused _).mpr ⟨_, .later ?_ (.later ?_ (.later ?_ (.here ⟨a, first, rfl⟩))), rfl⟩
    · rintro w ⟨unknown, -⟩
      exact unknown (by decide)
    · rintro w ⟨⟨g, hg, owner⟩, -⟩
      rw [List.mem_singleton.mp hg] at owner
      exact absurd owner (by decide)
    · rintro w ⟨empty, -⟩
      cases empty
  case first =>
    have hparse : Expr.parse "!(B | Z) & C & A" = .ok
        (.and (.and (.not (.or (.var b) (.var stranger))) (.var c)) (.var a)) := by cbv
    have outcome := accountable.constraint _ _ hparse
    rw [hmodel] at outcome
    rcases outcome with ⟨f, first, applied⟩ | ⟨-, asked⟩
    · rw [applied] at named
      obtain rfl : f = stranger := by
        injection named with same
        injection same with same
        injection same
      exact first
    · have said : (run.2.apply (.constraint "!(B | Z) & C & A")).run.1 = run.2.answered _ := asked
      rw [said, answered] at named
      split at named <;> cases named
  case late =>
    exact (accountable_applyAll "m" (edits.take 2)).2 hurried (Engine.actsBuiltin_builtin _ _)
      "A & B" (.and (.var a) (.var b)) _ (by cbv) apply_latecomer

end Draft

end ProductLine
