/- # The outcome of an edit — refused and without effect, or accepted in full

Whatever an engine answers, and whatever else it does, an edit comes to one
of two things.  It is refused, and then the model and the index are as
before; or it keeps the rules, and then the model has grown by what the edit
is about and the index by the feature that it declares, if it declares one.
What a constraint adds is what the engine answered.  `satisfies_apply` says
so for drafts of any monad, where `said` stands for all that is known of the
engine's replies.  Nothing that is proved about sequences of edits opens an
operation again: what each outcome keeps is kept by the sequence
(`satisfies_applyAll`).
-/
import Mathlib
import ProductLine.Proofs.Draft

namespace ProductLine

variable {m : Type → Type}

/-- Without effects, what holds of every result holds of the result. -/
theorem satisfiesM_id_iff {α : Type} {p : α → Prop} {x : Id α} : SatisfiesM p x ↔ p x.run :=
  SatisfiesM_Id_eq

/-! ## What an edit asks for and what it adds -/

/-- The edit keeps the rules of the model. -/
def Edit.Admitted (d : Draft m) : Edit → Prop
  | .mandatory f | .optional f | .declared f => f ∉ d.index
  | .alternative parent children =>
    parent ∈ d.index ∧ d.model.alternativeOf? parent = none ∧
      children ≠ [] ∧ children.Nodup ∧ ∀ f ∈ children, f ∈ d.index
  | .constraint expression =>
    ∃ e, Expr.parse expression = .ok e ∧ ∀ f ∈ e.vars, f ∈ d.index
  | .excluded listed => listed ≠ [] ∧ listed.Nodup ∧ ∀ f ∈ listed, f ∈ d.index

/-- The model with what the edit adds, where `texts` are the clauses of an engine. -/
def Edit.extend (texts : List String) (model : Model) : Edit → Model
  | .mandatory f =>
    { model with features := model.features ++ [f], mandatory := model.mandatory ++ [f] }
  | .optional f =>
    { model with features := model.features ++ [f], optional := model.optional ++ [f] }
  | .declared f => { model with features := model.features ++ [f] }
  | .alternative parent children =>
    { model with alternatives := model.alternatives ++ [⟨parent, children⟩] }
  | .constraint _ => { model with constraints := model.constraints ++ texts }
  | .excluded listed =>
    { model with
      constraints := model.constraints ++ [(Encoding.excludedClause model.features listed).text] }

/-- The index with the feature that the edit declares. -/
def Edit.enter (index : FeatureSet) : Edit → FeatureSet
  | .mandatory f | .optional f | .declared f => index.insert f
  | _ => index

/-- The second model holds all that the first one holds, in the same order, and what it holds
besides comes after it. -/
structure Model.GrowsTo (model model' : Model) : Prop where
  name : model'.name = model.name
  features : model.features <+: model'.features
  mandatory : model.mandatory <+: model'.mandatory
  optional : model.optional <+: model'.optional
  alternatives : model.alternatives <+: model'.alternatives
  constraints : model.constraints <+: model'.constraints

theorem Model.GrowsTo.refl (model : Model) : model.GrowsTo model :=
  ⟨rfl, List.prefix_rfl, List.prefix_rfl, List.prefix_rfl, List.prefix_rfl, List.prefix_rfl⟩

theorem Model.GrowsTo.trans {first second third : Model} (h : first.GrowsTo second)
    (h' : second.GrowsTo third) : first.GrowsTo third where
  name := h'.name.trans h.name
  features := h.features.trans h'.features
  mandatory := h.mandatory.trans h'.mandatory
  optional := h.optional.trans h'.optional
  alternatives := h.alternatives.trans h'.alternatives
  constraints := h.constraints.trans h'.constraints

theorem Edit.growsTo_extend (texts : List String) (model : Model) (edit : Edit) :
    model.GrowsTo (edit.extend texts model) := by
  cases edit <;> constructor <;>
    first | exact List.prefix_append _ _ | exact List.prefix_rfl | rfl

/-- The texts are those in a reply to a request for the expression, which the engine may have
`said`. -/
def Normalizer.Answered (n : Normalizer m) (said : Request → Reply → Prop) (expression : String)
    (texts : List String) : Prop :=
  ∃ reply, said ⟨n.tickets.ticket, expression, n.timeout⟩ reply ∧
    reply.outcome = .answered (.ok texts)

/-- Whatever it is asked, a normalizer changes in nothing but its tickets, and the texts that it
returns are the engine's. -/
theorem Normalizer.satisfies_normalize [Monad m] [LawfulMonad m] {n : Normalizer m}
    {said : Request → Reply → Prop}
    (replies : ∀ request, SatisfiesM (said request) (n.engine.reply request))
    (expression : String) :
    SatisfiesM (fun answer => (∃ tickets, answer.2 = { n with tickets := tickets }) ∧
      ∀ texts, answer.1 = .ok texts → n.Answered said expression texts)
      (n.normalize expression) := by
  unfold normalize request
  cases Expr.parse expression with
  | error fault => exact .pure ⟨⟨n.tickets, rfl⟩, nofun⟩
  | ok e =>
    refine .bind (replies _) fun reply hsaid => .pure ⟨⟨n.tickets.advance, rfl⟩, ?_⟩
    exact fun texts settled => ⟨reply, hsaid, answer_of_settle settled⟩

namespace Draft

/-- What an edit may come to, if the engine's replies are as `said`.  Refused or not, the
normalizer may have drawn a ticket. -/
inductive Outcome (said : Request → Reply → Prop) (d : Draft m) (edit : Edit) :
    Except ModelFault Unit × Draft m → Prop where
  | refused (fault : ModelFault) (tickets : TicketBook) :
      Outcome said d edit
        (.error fault, { d with normalizer := { d.normalizer with tickets := tickets } })
  | accepted (texts : List String) (tickets : TicketBook) :
      edit.Admitted d →
      (∀ expression, edit = .constraint expression →
        d.normalizer.Answered said expression texts) →
      Outcome said d edit
        (.ok (), ⟨edit.extend texts d.model, edit.enter d.index,
          { d.normalizer with tickets := tickets }⟩)

variable {said : Request → Reply → Prop}

theorem Outcome.engine {d : Draft m} {edit : Edit} {r : Except ModelFault Unit × Draft m}
    (h : Outcome said d edit r) : r.2.normalizer.engine = d.normalizer.engine := by
  cases h <;> rfl

theorem Outcome.growsTo {d : Draft m} {edit : Edit} {r : Except ModelFault Unit × Draft m}
    (h : Outcome said d edit r) : d.model.GrowsTo r.2.model := by
  cases h with
  | refused => exact .refl d.model
  | accepted texts => exact edit.growsTo_extend texts d.model

/-! ## One edit -/

section Step

variable {d : Draft m} {edit : Edit}

theorem outcome_revise {change : Except Violation Model}
    (other : ∀ expression, edit ≠ .constraint expression)
    (h : ∀ model, change = .ok model → edit.Admitted d ∧ model = edit.extend [] d.model) :
    Outcome said d edit (d.revise (edit.enter d.index) change) := by
  cases change with
  | error v => exact .refused (.violation v) d.normalizer.tickets
  | ok model =>
    obtain ⟨admitted, rfl⟩ := h model rfl
    exact .accepted [] d.normalizer.tickets admitted fun e he => absurd he (other e)

variable [Monad m] [LawfulMonad m]

theorem satisfies_constrain {expression : String}
    (replies : ∀ request, SatisfiesM (said request) (d.normalizer.engine.reply request)) :
    SatisfiesM (Outcome said d (.constraint expression)) (d.constrain expression) := by
  unfold constrain
  split
  · exact .pure (.refused _ d.normalizer.tickets)
  rename_i e hparse
  split
  · exact .pure (.refused _ d.normalizer.tickets)
  rename_i hdeclared
  refine .bind (Normalizer.satisfies_normalize replies expression) fun answer kept => ?_
  obtain ⟨result, normalizer⟩ := answer
  obtain ⟨⟨tickets, rfl⟩, answered⟩ := kept
  cases result with
  | error failure => exact .pure (.refused _ tickets)
  | ok texts =>
    have admitted : (Edit.constraint expression).Admitted d :=
      ⟨e, hparse, Rules.allDeclared_eq_ok_iff.mp hdeclared⟩
    refine .pure (.accepted texts tickets admitted fun asked hasked => ?_)
    obtain rfl := Edit.constraint.inj hasked
    exact answered texts rfl

/-- Every edit is refused or accepted. -/
theorem satisfies_apply
    (replies : ∀ request, SatisfiesM (said request) (d.normalizer.engine.reply request))
    (edit : Edit) : SatisfiesM (Outcome said d edit) (d.apply edit) := by
  cases edit with
  | mandatory f => exact .pure (outcome_revise nofun fun _ => Model.addMandatory_eq_ok_iff.mp)
  | optional f => exact .pure (outcome_revise nofun fun _ => Model.addOptional_eq_ok_iff.mp)
  | declared f => exact .pure (outcome_revise nofun fun _ => Model.addDeclared_eq_ok_iff.mp)
  | alternative parent children =>
    exact .pure (outcome_revise nofun fun _ => Model.addAlternative_eq_ok_iff.mp)
  | constraint expression => exact satisfies_constrain replies
  | excluded listed =>
    exact .pure (outcome_revise nofun fun _ => Model.addExcluded_eq_ok_iff.mp)

end Step

/-- Of an engine without effects it is known what it replies. -/
theorem outcome_apply (d : Draft Id) (edit : Edit) :
    Outcome (fun request reply => (d.normalizer.engine.reply request).run = reply) d edit
      (d.apply edit).run :=
  satisfiesM_id_iff.mp (satisfies_apply (fun _ => satisfiesM_id_iff.mpr rfl) edit)

/-! ## Many edits -/

/-- Makes the edits one after the other, whether or not those before them were accepted. -/
def applyAll [Monad m] (d : Draft m) : List Edit → m (List (Except ModelFault Unit) × Draft m)
  | [] => return ([], d)
  | edit :: edits => do
    let (result, d) ← d.apply edit
    let (results, d) ← d.applyAll edits
    return (result :: results, d)

/-- What each edit keeps, a sequence of edits keeps. -/
theorem satisfies_applyAll [Monad m] [LawfulMonad m] {holds : Draft m → Prop}
    (step : ∀ d edit, holds d → SatisfiesM (fun outcome => holds outcome.2) (d.apply edit))
    (edits : List Edit) {d : Draft m} (start : holds d) :
    SatisfiesM (fun run => holds run.2) (d.applyAll edits) := by
  induction edits generalizing d with
  | nil => exact .pure start
  | cons edit edits ih =>
    refine .bind (step d edit start) fun outcome kept => ?_
    exact .bind (ih kept) fun run final => .pure final

end Draft

end ProductLine
