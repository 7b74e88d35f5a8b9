/- # Drafts — a model while it is being written

A draft is a model together with an index of its features and the normalizer
that converts its constraints.  An edit succeeds or fails; a failing edit
leaves the model as it is, though an engine that was asked in vain has used
up a ticket.
-/
import ProductLine.Engine.Normalizer
import ProductLine.Model.Basic

namespace ProductLine

/-- Why an edit failed. -/
inductive ModelFault where
  | violation (violation : Violation)
  | engine (failure : EngineFailure)
deriving DecidableEq

def ModelFault.message : ModelFault → String
  | violation v => v.message
  | engine e => e.message

/-- The changes that can be made to a model. -/
inductive Edit where
  | mandatory (f : Feature)
  | optional (f : Feature)
  | declared (f : Feature)
  | alternative (parent : Feature) (children : List Feature)
  | constraint (expression : String)
  | excluded (features : List Feature)
deriving DecidableEq

/-- A model under construction, its declared features as a set, and the normalizer for its
constraints. -/
structure Draft (m : Type → Type) where
  model : Model
  index : FeatureSet
  normalizer : Normalizer m

namespace Draft

variable {m : Type → Type}

def empty (name : String) (normalizer : Normalizer m) : Draft m :=
  ⟨{ name := name }, ∅, normalizer⟩

/-- The outcome of a change that asks no engine; `index` is the set of the features after it. -/
def revise (d : Draft m) (index : FeatureSet) (change : Except Violation Model) :
    Except ModelFault Unit × Draft m :=
  match change with
  | .error v => (.error (.violation v), d)
  | .ok model => (.ok (), { d with model := model, index := index })

/-- Adds the clauses of a constraint.  Its text has to be an expression over declared features
before an engine is asked. -/
def constrain [Monad m] (d : Draft m) (expression : String) :
    m (Except ModelFault Unit × Draft m) :=
  match Expr.parse expression with
  | .error fault => return (.error (.engine (.ofSyntax fault)), d)
  | .ok e =>
    match Rules.allDeclared d.index e.vars with
    | .error v => return (.error (.violation v), d)
    | .ok () => do
      match ← d.normalizer.normalize expression with
      | (.error failure, normalizer) =>
        return (.error (.engine failure), { d with normalizer := normalizer })
      | (.ok clauses, normalizer) =>
        return (.ok (), ⟨d.model.addClauses clauses, d.index, normalizer⟩)

def apply [Monad m] (d : Draft m) : Edit → m (Except ModelFault Unit × Draft m)
  | .mandatory f => return d.revise (d.index.insert f) (d.model.addMandatory d.index f)
  | .optional f => return d.revise (d.index.insert f) (d.model.addOptional d.index f)
  | .declared f => return d.revise (d.index.insert f) (d.model.addDeclared d.index f)
  | .alternative parent children =>
    return d.revise d.index (d.model.addAlternative d.index parent children)
  | .constraint expression => d.constrain expression
  | .excluded features => return d.revise d.index (d.model.addExcluded d.index features)

end Draft

end ProductLine
