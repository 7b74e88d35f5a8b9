/- # Presence conditions — a model as conditions on defined names

One condition per mandatory feature, per alternative group and per clause,
in the order of the model and with an empty line after each.  A feature `F`
is spelled `defined(F)`.
-/
import ProductLine.Model.Basic

namespace ProductLine.Export

/-- Copies a text and puts each maximal run of identifier characters into `defined(…)`.  The flag
says whether the copy stands inside a run. -/
def wrapFrom (inside : Bool) : List Char → List Char
  | [] => if inside then [')'] else []
  | c :: rest =>
    match inside, isIdentifierChar c with
    | true, true => c :: wrapFrom true rest
    | true, false => ')' :: c :: wrapFrom false rest
    | false, true => "defined(".toList ++ c :: wrapFrom true rest
    | false, false => c :: wrapFrom false rest

/-- The text with each name `F` spelled `defined(F)`. -/
def wrapDefined (text : String) : String :=
  String.ofList (wrapFrom false text.toList)

/-- The condition of an alternative group: the parent implies its clause. -/
def groupCondition (g : AlternativeGroup) : String :=
  g.parent.name ++ " => " ++ g.clause

/-- The conditions of a model, with features spelled by their bare names. -/
def conditions (m : Model) : List String :=
  m.mandatory.map Feature.name ++ m.alternatives.map groupCondition ++ m.constraints

/-- The conditions, each followed by an empty line. -/
def presence (m : Model) : String :=
  String.join ((conditions m).map fun condition => wrapDefined condition ++ "\n\n")

end ProductLine.Export
