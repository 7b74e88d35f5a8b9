/- # Drafts abreast — edits that ask for the same

Two drafts are written side by side, under two names and with two normalizers
of the built-in engine.  An edit that is made on both of them comes to the
same: no operation looks at the name (`Model.rename`), and a condition counts
as the tree that is read from it, whatever its text is (`Expr.SameTree`).  What
the engine answers is then the same too, as long as its time does not run out;
a normalizer whose time does run out says so (`EngineFailure.Late`).

Faults are compared by their kinds, since the words of a fault may quote the
text.
-/
import ProductLine.Proofs.Draft
import ProductLine.Source.Fault

namespace ProductLine

/-! ## Kinds of faults -/

/-- What a fault is about, apart from texts that it quotes. -/
inductive FaultKind where
  | unknownDirective (keyword : String)
  | invalidFeatureName
  | violation (violation : Violation)
  | unavailable
  | timeout
  | malformed
deriving DecidableEq

/-- The kind of an engine's failure. -/
def EngineFailure.kind : EngineFailure → FaultKind
  | unavailable _ => .unavailable
  | timeout _ => .timeout
  | malformed _ => .malformed

/-- The kind of a refused edit's fault. -/
def ModelFault.kind : ModelFault → FaultKind
  | violation v => .violation v
  | engine failure => failure.kind

/-- The kind of a refused line's fault. -/
def LineFault.kind : LineFault → FaultKind
  | directive (.unknownDirective keyword) => .unknownDirective keyword
  | directive (.invalidFeatureName _) => .invalidFeatureName
  | model fault => fault.kind

/-- The failure is for want of time: the conversion was cut off at its deadline, or its answer came
after the timeout. -/
def EngineFailure.Late (timeout : Duration) (failure : EngineFailure) : Prop :=
  failure = .ofCutoff .deadline ∨ failure = .timeout ("no answer within " ++ timeout.text)

/-- Both runs go well and end in related states, or both fail, and with faults of one kind. -/
inductive Concurs {ε σ κ : Type} (kind : ε → κ) (related : σ → σ → Prop) :
    Except ε Unit × σ → Except ε Unit × σ → Prop where
  | accepted {s s' : σ} : related s s' → Concurs kind related (.ok (), s) (.ok (), s')
  | refused {fault fault' : ε} {s s' : σ} : kind fault' = kind fault →
      Concurs kind related (.error fault, s) (.error fault', s')

/-! ## Names -/

namespace Model

/-- The same model under another name. -/
def rename (name : String) (model : Model) : Model :=
  { model with name := name }

variable {model : Model} {name : String} {index : FeatureSet}

theorem addDeclared_rename (f : Feature) :
    (model.rename name).addDeclared index f = (model.addDeclared index f).map (rename name) := by
  unfold addDeclared
  cases Rules.undeclared index f <;> rfl

theorem addMandatory_rename (f : Feature) :
    (model.rename name).addMandatory index f = (model.addMandatory index f).map (rename name) := by
  unfold addMandatory
  rw [addDeclared_rename]
  cases model.addDeclared index f <;> rfl

theorem addOptional_rename (f : Feature) :
    (model.rename name).addOptional index f = (model.addOptional index f).map (rename name) := by
  unfold addOptional
  rw [addDeclared_rename]
  cases model.addDeclared index f <;> rfl

theorem addAlternative_rename (parent : Feature) (children : List Feature) :
    (model.rename name).addAlternative index parent children =
      (model.addAlternative index parent children).map (rename name) := by
  have owns : (model.rename name).ownsNoGroup parent = model.ownsNoGroup parent := rfl
  unfold addAlternative
  rw [owns]
  cases Rules.declared index parent with
  | error => rfl
  | ok =>
    cases model.ownsNoGroup parent with
    | error => rfl
    | ok =>
      cases Rules.nonEmpty children .alternative with
      | error => rfl
      | ok =>
        cases Rules.distinct children with
        | error => rfl
        | ok => cases Rules.allDeclared index children <;> rfl

theorem addExcluded_rename (excluded : List Feature) :
    (model.rename name).addExcluded index excluded =
      (model.addExcluded index excluded).map (rename name) := by
  unfold addExcluded
  cases Rules.nonEmpty excluded .excluded with
  | error => rfl
  | ok =>
    cases Rules.distinct excluded with
    | error => rfl
    | ok => cases Rules.allDeclared index excluded <;> rfl

end Model

/-! ## Conditions -/

/-- The same tree is read from both texts, or from neither of them any. -/
def Expr.SameTree (text text' : String) : Prop :=
  ∀ e, parse text = .ok e ↔ parse text' = .ok e

/-- The engine answers as the built-in one with this budget, in whatever time. -/
def Engine.ActsBuiltinWithin (engine : Engine Id) (maxClauses : Nat) : Prop :=
  ∀ request, ∃ pace,
    engine.reply request = (Engine.builtin maxClauses pace : Engine Id).reply request

theorem Engine.actsBuiltinWithin_builtin (maxClauses : Nat) (pace : Pace) :
    (Engine.builtin maxClauses pace : Engine Id).ActsBuiltinWithin maxClauses :=
  fun _ => ⟨pace, rfl⟩

variable {maxClauses : Nat}

/-- The built-in engine fails for want of time, or its answer does not depend on time. -/
theorem Engine.convertText_eq_or (limits : Cnf.Limits) (text : String) :
    convertText limits text = .error (.ofCutoff .deadline) ∨
      convertText limits text = convertText limits.unhurried text := by
  unfold convertText
  cases Expr.parse text with
  | error => exact .inr rfl
  | ok e =>
    dsimp only
    rcases Cnf.convert_eq_or limits e with cut | same
    · rw [cut]
      exact .inl rfl
    · rw [same]
      exact .inr rfl

theorem Engine.convertText_congr {limits : Cnf.Limits} {text text' : String} {e : Expr}
    (h : Expr.parse text = .ok e) (h' : Expr.parse text' = .ok e) :
    convertText limits text' = convertText limits text := by
  rw [convertText, convertText, h, h']

/-- What comes of a request to the built-in engine is late, or does not depend on time. -/
theorem Normalizer.settle_eq_or {n : Normalizer Id}
    (builtin : n.engine.ActsBuiltinWithin maxClauses) (request : Request) :
    (∃ failure, n.settle (n.engine.reply request).run = .error failure ∧ failure.Late n.timeout) ∨
      n.settle (n.engine.reply request).run =
        Engine.convertText ⟨maxClauses, .ample⟩ request.expression := by
  obtain ⟨pace, hreply⟩ := builtin request
  rw [hreply]
  show (∃ failure, n.inTime pace.elapsed _ = .error failure ∧ _) ∨ n.inTime pace.elapsed _ = _
  unfold inTime
  split
  case isTrue => exact .inl ⟨_, rfl, .inr rfl⟩
  case isFalse =>
    rcases Engine.convertText_eq_or ⟨maxClauses, pace.clock⟩ request.expression with cut | same
    · exact .inl ⟨_, cut, .inl rfl⟩
    · exact .inr same

/-! ## Edits -/

/-- Edits that are the same but for the text of a condition. -/
inductive Edit.Respelled : Edit → Edit → Prop where
  | same (edit : Edit) : Respelled edit edit
  | constraint {text text' : String} : Expr.SameTree text text' →
      Respelled (.constraint text) (.constraint text')

namespace Draft

/-- The drafts hold the same under two names, and draw on copies of two normalizers. -/
structure Abreast (n n' : Normalizer Id) (name : String) (d d' : Draft Id) : Prop where
  model : d'.model = d.model.rename name
  index : d'.index = d.index
  normalizer : ∃ tickets, d.normalizer = { n with tickets := tickets }
  normalizer' : ∃ tickets, d'.normalizer = { n' with tickets := tickets }

variable {n n' : Normalizer Id} {name : String} {d d' : Draft Id}

/-- A change that does not look at the name comes to the same. -/
theorem Abreast.revise (h : Abreast n n' name d d') (enter : FeatureSet → FeatureSet)
    (change : Model → FeatureSet → Except Violation Model)
    (renames : ∀ model index,
      change (model.rename name) index = (change model index).map (Model.rename name)) :
    Concurs ModelFault.kind (Abreast n n' name)
      (d.revise (enter d.index) (change d.model d.index))
      (d'.revise (enter d'.index) (change d'.model d'.index)) := by
  rw [h.model, h.index, renames]
  cases change d.model d.index with
  | error v => exact .refused rfl
  | ok model => exact .accepted ⟨rfl, rfl, h.normalizer, h.normalizer'⟩

/-- What comes of asking the built-in engine for an expression is late, or does not depend on
time. -/
theorem exists_normalize (builtin : n.engine.ActsBuiltinWithin maxClauses) (tickets : TicketBook)
    {text : String} {e : Expr} (h : Expr.parse text = .ok e) : ∃ result after,
      (({ n with tickets := tickets } : Normalizer Id).normalize text).run =
        (result, { n with tickets := after }) ∧
      ((∃ failure, result = .error failure ∧ failure.Late n.timeout) ∨
        result = Engine.convertText ⟨maxClauses, .ample⟩ text) := by
  refine ⟨_, tickets.advance, ?_, Normalizer.settle_eq_or builtin ⟨tickets.ticket, text, n.timeout⟩⟩
  unfold Normalizer.normalize Normalizer.request
  rw [h]
  rfl

theorem Abreast.constrain (h : Abreast n n' name d d')
    (builtin : n.engine.ActsBuiltinWithin maxClauses)
    (builtin' : n'.engine.ActsBuiltinWithin maxClauses) {text text' : String}
    (same : Expr.SameTree text text')
    (prompt : ∀ failure, (d.constrain text).run.1 = .error (.engine failure) →
      ¬ failure.Late n.timeout)
    (prompt' : ∀ failure, (d'.constrain text').run.1 = .error (.engine failure) →
      ¬ failure.Late n'.timeout) :
    Concurs ModelFault.kind (Abreast n n' name) (d.constrain text).run
      (d'.constrain text').run := by
  revert prompt prompt'
  unfold Draft.constrain
  cases hread : Expr.parse text with
  | error fault =>
    cases hread' : Expr.parse text' with
    | error fault' =>
      intro _ _
      exact .refused rfl
    | ok e =>
      rw [(same e).mpr hread'] at hread
      cases hread
  | ok e =>
    rw [(same e).mp hread]
    dsimp only
    rw [h.index]
    cases Rules.allDeclared d.index e.vars with
    | error v =>
      intro _ _
      exact .refused rfl
    | ok =>
      obtain ⟨tickets, hn⟩ := h.normalizer
      obtain ⟨tickets', hn'⟩ := h.normalizer'
      obtain ⟨result, after, hrun, hresult⟩ := exists_normalize builtin tickets hread
      obtain ⟨result', after', hrun', hresult'⟩ :=
        exists_normalize builtin' tickets' ((same e).mp hread)
      dsimp only
      rw [Id.run_bind, Id.run_bind, hn, hn', hrun, hrun']
      intro prompt prompt'
      rcases hresult with ⟨failure, rfl, late⟩ | rfl
      · exact absurd late (prompt failure rfl)
      rcases hresult' with ⟨failure, rfl, late⟩ | rfl
      · exact absurd late (prompt' failure rfl)
      rw [Engine.convertText_congr hread ((same e).mp hread)]
      cases Engine.convertText ⟨maxClauses, .ample⟩ text with
      | error failure => exact .refused rfl
      | ok texts =>
        refine .accepted ⟨?_, rfl, ⟨after, rfl⟩, after', rfl⟩
        exact congrArg (Model.addClauses · texts) h.model

/-- Edits that ask for the same come to the same, unless there is no time. -/
theorem Abreast.apply (h : Abreast n n' name d d')
    (builtin : n.engine.ActsBuiltinWithin maxClauses)
    (builtin' : n'.engine.ActsBuiltinWithin maxClauses) {edit edit' : Edit}
    (same : edit.Respelled edit')
    (prompt : ∀ failure, (d.apply edit).run.1 = .error (.engine failure) →
      ¬ failure.Late n.timeout)
    (prompt' : ∀ failure, (d'.apply edit').run.1 = .error (.engine failure) →
      ¬ failure.Late n'.timeout) :
    Concurs ModelFault.kind (Abreast n n' name) (d.apply edit).run (d'.apply edit').run := by
  cases same with
  | constraint same => exact h.constrain builtin builtin' same prompt prompt'
  | same =>
    cases edit with
    | constraint text => exact h.constrain builtin builtin' (fun _ => Iff.rfl) prompt prompt'
    | mandatory f =>
      exact h.revise (·.insert f) (·.addMandatory · f) fun _ _ => Model.addMandatory_rename f
    | optional f =>
      exact h.revise (·.insert f) (·.addOptional · f) fun _ _ => Model.addOptional_rename f
    | declared f =>
      exact h.revise (·.insert f) (·.addDeclared · f) fun _ _ => Model.addDeclared_rename f
    | alternative parent children =>
      exact h.revise id (·.addAlternative · parent children) fun _ _ =>
        Model.addAlternative_rename parent children
    | excluded listed =>
      exact h.revise id (·.addExcluded · listed) fun _ _ => Model.addExcluded_rename listed

end Draft

end ProductLine
