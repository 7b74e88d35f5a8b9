/- # Erasing what was refused — edits are all or nothing

A caller that goes on after a fault should not have to ask whether half an
edit has been made.  None has: by `Draft.outcome_apply` a refused edit leaves
model and index as they were, and an accepted one appends to the lists that
it is about.  Of a refused edit nothing remains but a ticket, which an engine
that looks at the expression alone does not notice, so that the edits that
were accepted, made by themselves, lead to the same model.
-/
import ProductLine.Proofs.Draft.Alike
import ProductLine.Proofs.Draft.WellFormed

namespace ProductLine.Draft

variable {m : Type → Type} {said : Request → Reply → Prop}
  {answer : String → Except EngineFailure (List String)}

/-- The edit was made in full or not at all, where `said` is what the engine may reply. -/
structure AllOrNothing (said : Request → Reply → Prop) (d : Draft m) (edit : Edit)
    (r : Except ModelFault Unit × Draft m) : Prop where
  refused : ∀ fault, r.1 = .error fault → r.2.model = d.model ∧ r.2.index = d.index
  accepted : r.1 = .ok () → ∃ texts,
    r.2.model = edit.extend texts d.model ∧ r.2.index = edit.enter d.index ∧
      ∀ expression, edit = .constraint expression → d.normalizer.Answered said expression texts

theorem Outcome.allOrNothing {d : Draft m} {edit : Edit} {r : Except ModelFault Unit × Draft m}
    (h : Outcome said d edit r) : AllOrNothing said d edit r := by
  cases h with
  | refused fault tickets => exact ⟨fun _ _ => ⟨rfl, rfl⟩, nofun⟩
  | accepted texts tickets admitted answered => exact ⟨nofun, fun _ => ⟨texts, rfl, rfl, answered⟩⟩

/-- The edits that were accepted. -/
def accepted (edits : List Edit) (results : List (Except ModelFault Unit)) : List Edit :=
  ((edits.zip results).filter fun call => call.2.isOk).map Prod.fst

theorem accepted_cons_error {edit : Edit} {edits : List Edit} {fault : ModelFault}
    {results : List (Except ModelFault Unit)} :
    accepted (edit :: edits) (.error fault :: results) = accepted edits results :=
  rfl

theorem accepted_cons_ok {edit : Edit} {edits : List Edit}
    {results : List (Except ModelFault Unit)} :
    accepted (edit :: edits) (.ok () :: results) = edit :: accepted edits results :=
  rfl

theorem run_applyAll_cons {d next : Draft Id} {edit : Edit} {result : Except ModelFault Unit}
    (h : (d.apply edit).run = (result, next)) (edits : List Edit) :
    (d.applyAll (edit :: edits)).run =
      (result :: (next.applyAll edits).run.1, (next.applyAll edits).run.2) := by
  rw [applyAll, Id.run_bind, h]
  rfl

/-- The accepted edits by themselves lead to a draft alike. -/
theorem Alike.applyAll_accepted {d d' : Draft Id} (h : Alike answer d d') (edits : List Edit) :
    (d'.applyAll (accepted edits (d.applyAll edits).run.1)).run.1 =
        (d.applyAll edits).run.1.filter Except.isOk ∧
      Alike answer (d.applyAll edits).run.2
        (d'.applyAll (accepted edits (d.applyAll edits).run.1)).run.2 := by
  induction edits generalizing d d' with
  | nil => exact ⟨rfl, h⟩
  | cons edit edits ih =>
    obtain ⟨result, next, next', hedit, hedit', alike⟩ := h.apply edit
    have outcome := outcome_apply d edit
    rw [hedit] at outcome
    rw [run_applyAll_cons hedit]
    cases outcome with
    | refused fault tickets =>
      -- the edit is not made again, and the draft after it is like the one before
      rw [accepted_cons_error]
      exact ih ⟨h.model, h.index, h.answers, h.answers'⟩
    | accepted texts tickets =>
      obtain ⟨results, final⟩ := ih alike
      rw [accepted_cons_ok, run_applyAll_cons hedit']
      exact ⟨congrArg (List.cons _) results, final⟩

/-- Whatever the engine is and whatever it does, an edit is made in full or not at all.  If the
engine's answers depend on the expression alone, the accepted ones of any edits, made by themselves,
are accepted again and lead to the same model. -/
theorem applyAll_erase_refused :
    (∀ (m : Type → Type) [Monad m] [LawfulMonad m] (said : Request → Reply → Prop) (d : Draft m),
      (∀ request, SatisfiesM (said request) (d.normalizer.engine.reply request)) →
      ∀ edit, SatisfiesM (AllOrNothing said d edit) (d.apply edit)) ∧
    ∀ (answer : String → Except EngineFailure (List String)) (d : Draft Id) (n : Normalizer Id),
      d.normalizer.Answers answer → n.Answers answer → ∀ edits,
        let run := (d.applyAll edits).run
        let again := ({ d with normalizer := n }.applyAll (accepted edits run.1)).run
        again.1 = run.1.filter Except.isOk ∧ again.2.model = run.2.model ∧
          again.2.index = run.2.index := by
  constructor
  · intro m _ _ said d replies edit
    exact (satisfies_apply replies edit).imp Outcome.allOrNothing
  · intro answer d n answers answers' edits
    have start : Alike answer d { d with normalizer := n } := ⟨rfl, rfl, answers, answers'⟩
    obtain ⟨results, alike⟩ := start.applyAll_accepted edits
    exact ⟨results, alike.model, alike.index⟩

namespace Sample

open Cnf.Sample

/-- The engine crashes on one expression and gives back every other. -/
def brittleReply (expression : String) : Reply :=
  if expression = "A" then { outcome := .crashed } else .ofAnswer (.ok [expression])

def brittle : Engine Id where
  name := "brittle"
  reply request := pure (brittleReply request.expression)

def brittleAsker : Normalizer Id where
  engine := brittle
  timeout := Normalizer.defaultTimeout
  tickets := { family := 0 }

/-- The second edit breaks a rule.  The fourth makes the engine crash, which takes a ticket. -/
def mixed : List Edit :=
  [.mandatory a, .declared a, .optional b, .constraint "A", .constraint "A | B"]

def mixedRun : List (Except ModelFault Unit) × Draft Id :=
  ((Draft.empty "m" brittleAsker).applyAll mixed).run

def mixedModel : Model where
  name := "m"
  features := [a, b]
  mandatory := [a]
  optional := [b]
  constraints := ["A | B"]

def mixedDraft : Draft Id where
  model := mixedModel
  index := ((∅ : FeatureSet).insert a).insert b
  normalizer := brittleAsker

end Sample

open Draft.Sample Cnf.Sample in
theorem applyAll_erase_mixed :
    mixedRun.1.map Except.isOk = [true, false, true, false, true] ∧
      mixedRun.2.model = mixedModel ∧
      ((Draft.empty "m" brittleAsker).applyAll
        [.mandatory a, .optional b, .constraint "A | B"]).run.2.model = mixedModel ∧
      AllOrNothing (fun request reply => (brittle.reply request).run = reply) mixedDraft
        (.constraint "A") (mixedDraft.apply (.constraint "A")).run := by
  have expressionAlone : brittle.DependsOnExpression := ⟨brittleReply, fun _ => rfl⟩
  obtain ⟨answer, answers⟩ := Normalizer.exists_answers expressionAlone Normalizer.defaultTimeout
  have erased := applyAll_erase_refused.2 answer (Draft.empty "m" brittleAsker) brittleAsker
    (answers _) (answers _) mixed
  have left : accepted mixed mixedRun.1 = [.mandatory a, .optional b, .constraint "A | B"] := by cbv
  have model : mixedRun.2.model = mixedModel := by cbv
  refine ⟨by cbv, model, ?_, ?_⟩
  · rw [← left, ← model]
    exact erased.2.1
  · refine satisfiesM_id_iff.mp (applyAll_erase_refused.1 Id _ mixedDraft (fun request => ?_) _)
    exact satisfiesM_id_iff.mpr rfl

end ProductLine.Draft
