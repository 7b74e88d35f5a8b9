/- # Engine failures — a constraint that was not converted

An engine is missing, late, or it was given or gave something malformed.
The reason is free text: engines are open-ended, and so are their reasons.
-/
import ProductLine.Cnf.Convert
import ProductLine.Expr.Token

namespace ProductLine

/-- Why a constraint has no conjunctive normal form. -/
inductive EngineFailure where
  | unavailable (reason : String)
  | timeout (reason : String)
  | malformed (reason : String)
deriving DecidableEq

namespace EngineFailure

def message : EngineFailure → String
  | unavailable reason => "CNF engine unavailable: " ++ reason
  | timeout reason => "CNF conversion timed out: " ++ reason
  | malformed reason => "malformed expression: " ++ reason

/-- A text that is not an expression is malformed. -/
def ofSyntax (fault : SyntaxFault) : EngineFailure :=
  malformed fault.message

/-- A conversion that reached one of its limits has timed out. -/
def ofCutoff (cutoff : Cnf.Cutoff) : EngineFailure :=
  timeout cutoff.message

end EngineFailure

end ProductLine
