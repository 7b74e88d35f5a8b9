/- # Literals — a feature or its absence

A literal is a feature with a polarity.  Its text is the name, after `!` if
the literal is negative, and `ofText?` reads exactly these texts.
-/
import ProductLine.Feature

namespace ProductLine

/-- An assignment says of every feature whether it is selected. -/
abbrev Assignment := Feature → Bool

/-- A feature together with a polarity. -/
structure Literal where
  feature : Feature
  negated : Bool
deriving DecidableEq

def Feature.pos (f : Feature) : Literal := ⟨f, false⟩

def Feature.neg (f : Feature) : Literal := ⟨f, true⟩

namespace Literal

def negate (l : Literal) : Literal := ⟨l.feature, !l.negated⟩

def value (l : Literal) (selected : Bool) : Bool := selected != l.negated

def eval (σ : Assignment) (l : Literal) : Bool := l.value (σ l.feature)

/-- The feature's name, after `!` if the literal is negative. -/
def text (l : Literal) : String :=
  if l.negated then "!" ++ l.feature.name else l.feature.name

/-- Literals are listed by feature, the positive one before the negative one. -/
def le (a b : Literal) : Bool :=
  if a.feature = b.feature then !a.negated || b.negated else a.feature.le b.feature

/-- Splits a literal's text at its polarity: whether it has a leading `!`, and what follows. -/
def splitSign (text : String) : Bool × String :=
  match text.toList with
  | '!' :: name => (true, String.ofList name)
  | name => (false, String.ofList name)

def ofText? (text : String) : Option Literal :=
  (Feature.ofName? (splitSign text).2).map fun f => ⟨f, (splitSign text).1⟩

@[simp] theorem negate_negate (l : Literal) : l.negate.negate = l := by
  cases l; simp [negate]

@[simp] theorem eval_negate (σ : Assignment) (l : Literal) :
    l.negate.eval σ = !l.eval σ := by
  cases l with | mk f negated => cases negated <;> simp [eval, value, negate]

@[simp] theorem eval_pos (σ : Assignment) (f : Feature) : f.pos.eval σ = σ f :=
  Bool.bne_false _

@[simp] theorem eval_neg (σ : Assignment) (f : Feature) : f.neg.eval σ = !σ f :=
  Bool.bne_true _

end Literal

end ProductLine
