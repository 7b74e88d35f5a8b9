/- # Encodings — directives as conditions on features

An alternative group says that exactly one of its children holds: a
disjunction of *cubes*, one per child, in which that child is positive and
all others are negative.  An excluded configuration selects certain features
and no others: one clause, false under that configuration alone.
-/
import ProductLine.Clause

namespace ProductLine.Encoding

/-- The cube of each child: that child holds and no other one does. -/
def exactlyOneCubes (children : List Feature) : List (List Literal) :=
  children.mapIdx fun i _ => children.mapIdx fun j child => ⟨child, i != j⟩

/-- A cube's literals with ` & ` between them, in parentheses. -/
def cubeText (cube : List Literal) : String :=
  "(" ++ " & ".intercalate (cube.map Literal.text) ++ ")"

/-- Exactly one child holds, in the expression language.  A single child stands for itself, and no
children have no encoding. -/
def exactlyOne : List Feature → Option String
  | [] => none
  | [child] => some child.name
  | children => some (" | ".intercalate ((exactlyOneCubes children).map cubeText))

/-- The clause that only the configuration of the `excluded` features fails: each of these
negated, then the other ones of `all` in their order. -/
def excludedClause (all excluded : List Feature) : Clause :=
  ⟨excluded.map Feature.neg ++ (all.filter (!excluded.contains ·)).map Feature.pos⟩

end ProductLine.Encoding
