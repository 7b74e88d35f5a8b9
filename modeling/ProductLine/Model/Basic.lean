/- # Feature models — features, their groups and their constraints

A model lists what it was told in the order in which it was told.  It grows
by the operations below, each of which either checks out and adds at the end
of the lists it is about, or names the first rule that is broken and leaves
no model behind.  Which features are declared is asked of an index that is
kept beside the model (`ProductLine.Model.Draft`).
-/
import ProductLine.Encoding
import ProductLine.Model.Rules

namespace ProductLine

/-- A parent and its children, exactly one of which holds whenever the parent does. -/
structure AlternativeGroup where
  parent : Feature
  children : List Feature
deriving DecidableEq

/-- The encoding of the group's children; the groups of a model have some. -/
def AlternativeGroup.clause (g : AlternativeGroup) : String :=
  (Encoding.exactlyOne g.children).getD ""

/-- A feature model.  The constraints are the texts of clauses, read as a conjunction. -/
structure Model where
  name : String
  features : List Feature := []
  mandatory : List Feature := []
  optional : List Feature := []
  alternatives : List AlternativeGroup := []
  constraints : List String := []
deriving DecidableEq

namespace Model

def addDeclared (m : Model) (index : FeatureSet) (f : Feature) : Except Violation Model := do
  Rules.undeclared index f
  return { m with features := m.features ++ [f] }

/-- Declares a feature that every configuration selects. -/
def addMandatory (m : Model) (index : FeatureSet) (f : Feature) : Except Violation Model := do
  let m ← m.addDeclared index f
  return { m with mandatory := m.mandatory ++ [f] }

/-- Declares a feature that a configuration may select. -/
def addOptional (m : Model) (index : FeatureSet) (f : Feature) : Except Violation Model := do
  let m ← m.addDeclared index f
  return { m with optional := m.optional ++ [f] }

/-- The children of the group that `parent` owns. -/
def alternativeOf? (m : Model) (parent : Feature) : Option (List Feature) :=
  (m.alternatives.find? fun g => g.parent = parent).map AlternativeGroup.children

def ownsNoGroup (m : Model) (parent : Feature) : Except Violation Unit :=
  if (m.alternativeOf? parent).isSome then .error (.redefinition parent .alternativeGroup)
  else .ok ()

def addAlternative (m : Model) (index : FeatureSet) (parent : Feature) (children : List Feature) :
    Except Violation Model := do
  Rules.declared index parent
  m.ownsNoGroup parent
  Rules.nonEmpty children .alternative
  Rules.distinct children
  Rules.allDeclared index children
  return { m with alternatives := m.alternatives ++ [⟨parent, children⟩] }

/-- Forbids the configuration that selects the `excluded` features and no other one of those
declared so far. -/
def addExcluded (m : Model) (index : FeatureSet) (excluded : List Feature) :
    Except Violation Model := do
  Rules.nonEmpty excluded .excluded
  Rules.distinct excluded
  Rules.allDeclared index excluded
  let clause := Encoding.excludedClause m.features excluded
  return { m with constraints := m.constraints ++ [clause.text] }

def addClauses (m : Model) (clauses : List String) : Model :=
  { m with constraints := m.constraints ++ clauses }

end Model

end ProductLine
