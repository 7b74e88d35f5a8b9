/- # Drafts alike — what does not matter to an edit

Two drafts may hold the same and still be different: every request to an
engine takes a ticket, so a draft that has been through more has another
counter.  If the engine looks at the expression alone, this does not show.
Such drafts are alike, an edit comes to the same on both of them, and they
are alike after it.

What an engine is free in is its time.  `Normalizer.Answers` is about what
the asker makes of a reply; one that is slower for some tickets than for
others is as good, as long as it is late for all of them or for none.
-/
import ProductLine.Proofs.Draft

namespace ProductLine

/-- Both runs come to the same result, and what they leave behind is related. -/
def SameResult {α σ : Type} (related : σ → σ → Prop) (r r' : α × σ) : Prop :=
  ∃ result s s', r = (result, s) ∧ r' = (result, s') ∧ related s s'

/-! ## Engines that look at the expression alone -/

theorem Engine.builtin_dependsOnExpression (maxClauses : Nat) (pace : Pace) :
    (Engine.builtin maxClauses pace : Engine Id).DependsOnExpression :=
  ⟨fun expression =>
    { outcome := .answered (convertText ⟨maxClauses, pace.clock⟩ expression)
      elapsed := pace.elapsed }, fun _ => rfl⟩

namespace Normalizer

/-- Whatever the ticket is, what the asker makes of the engine's reply is the answer to the
expression. -/
def Answers (n : Normalizer Id) (answer : String → Except EngineFailure (List String)) : Prop :=
  ∀ ticket expression,
    n.settle (n.engine.reply ⟨ticket, expression, n.timeout⟩).run = answer expression

/-- An engine whose reply depends on the expression alone has such answers. -/
theorem exists_answers {engine : Engine Id} (h : engine.DependsOnExpression)
    (timeout : Duration) :
    ∃ answer, ∀ tickets, (⟨engine, timeout, tickets⟩ : Normalizer Id).Answers answer := by
  obtain ⟨reply, hreply⟩ := h
  refine ⟨fun expression => settle ⟨engine, timeout, { family := 0 }⟩ (reply expression), ?_⟩
  intro tickets ticket expression
  show settle _ (engine.reply _).run = _
  rw [hreply]
  rfl

variable {n n' : Normalizer Id} {answer : String → Except EngineFailure (List String)}

/-- Normalizers with the same answers return the same, and keep their answers. -/
theorem Answers.normalize (h : n.Answers answer) (h' : n'.Answers answer) (expression : String) :
    SameResult (fun n n' => n.Answers answer ∧ n'.Answers answer)
      (n.normalize expression).run (n'.normalize expression).run := by
  unfold Normalizer.normalize request
  cases Expr.parse expression with
  | error fault => exact ⟨_, n, n', rfl, rfl, h, h'⟩
  | ok e =>
    have same := (h' n'.tickets.ticket expression).trans (h n.tickets.ticket expression).symm
    exact ⟨_, n.advance, n'.advance, rfl, congrArg (·, n'.advance) same, h, h'⟩

end Normalizer

/-! ## Edits on drafts that are alike -/

namespace Draft

/-- The drafts hold the same, and their normalizers have the same answers. -/
structure Alike (answer : String → Except EngineFailure (List String)) (d d' : Draft Id) :
    Prop where
  model : d'.model = d.model
  index : d'.index = d.index
  answers : d.normalizer.Answers answer
  answers' : d'.normalizer.Answers answer

variable {answer : String → Except EngineFailure (List String)} {d d' : Draft Id}

theorem Alike.revise (h : Alike answer d d') (index : FeatureSet)
    (change : Except Violation Model) :
    SameResult (Alike answer) (d.revise index change) (d'.revise index change) := by
  cases change with
  | error v => exact ⟨_, d, d', rfl, rfl, h⟩
  | ok model => exact ⟨_, _, _, rfl, rfl, rfl, rfl, h.answers, h.answers'⟩

theorem Alike.constrain (h : Alike answer d d') (expression : String) :
    SameResult (Alike answer) (d.constrain expression).run (d'.constrain expression).run := by
  unfold Draft.constrain
  cases Expr.parse expression with
  | error fault => exact ⟨_, d, d', rfl, rfl, h⟩
  | ok e =>
    dsimp only
    rw [h.index, h.model]
    cases Rules.allDeclared d.index e.vars with
    | error v => exact ⟨_, d, d', rfl, rfl, h⟩
    | ok =>
      dsimp only
      rw [Id.run_bind, Id.run_bind]
      obtain ⟨result, n, n', hrun, hrun', answers, answers'⟩ :=
        h.answers.normalize h.answers' expression
      rw [hrun, hrun']
      cases result with
      | error failure => exact ⟨_, _, _, rfl, rfl, rfl, rfl, answers, answers'⟩
      | ok texts => exact ⟨_, _, _, rfl, rfl, rfl, rfl, answers, answers'⟩

/-- An edit comes to the same on drafts that are alike, and they are alike after it. -/
theorem Alike.apply (h : Alike answer d d') (edit : Edit) :
    SameResult (Alike answer) (d.apply edit).run (d'.apply edit).run := by
  unfold Draft.apply
  cases edit with
  | constraint expression => exact h.constrain expression
  | _ =>
    dsimp only [Id.run_pure]
    rw [h.model, h.index]
    exact h.revise _ _

end Draft

end ProductLine
