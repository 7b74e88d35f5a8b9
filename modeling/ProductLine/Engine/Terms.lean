/- # Terms — reading the answer of an external engine

An external engine prints a conjunction.  Its terms are separated by `&`
outside all parentheses, `~` may stand for `!`, and a term may be wrapped in
one pair of parentheses.  Each term is kept as it is written, once it has
been checked to be an expression.
-/
import ProductLine.Engine.Failure
import ProductLine.Expr.Read
import ProductLine.Text.Words

namespace ProductLine.Terms

/-- The depth after a character: parentheses count, and may go below zero. -/
def depthAfter (depth : Int) : Char → Int
  | '(' => depth + 1
  | ')' => depth - 1
  | _ => depth

/-- The pieces between the `&` at depth zero, where the text starts at `depth`. -/
def splitConjuncts (depth : Int) : List Char → List (List Char)
  | [] => [[]]
  | c :: rest =>
    if c = '&' ∧ depth = 0 then
      [] :: splitConjuncts depth rest
    else
      match splitConjuncts (depthAfter depth c) rest with
      | [] => [[c]]
      | piece :: pieces => (c :: piece) :: pieces

/-- The depth, starting from `depth`, never falls below zero. -/
def staysOpen (depth : Int) : List Char → Bool
  | [] => true
  | c :: rest => 0 ≤ depthAfter depth c && staysOpen (depthAfter depth c) rest

/-- What stands between a `(` at the start and a `)` at the end. -/
def between? : List Char → Option (List Char)
  | '(' :: rest => if rest.getLast? = some ')' then some rest.dropLast else none
  | _ => none

/-- The term without the pair of parentheses that encloses it, if the first parenthesis is closed
by the last one. -/
def unwrap (term : List Char) : List Char :=
  match between? term with
  | none => term
  | some inner => if staysOpen 0 inner then Text.trim inner else term

/-- The terms of a conjunction, before they are checked. -/
def pieces (output : List Char) : List (List Char) :=
  let text := (Text.trim output).map fun c => if c = '~' then '!' else c
  ((splitConjuncts 0 text).map fun piece => unwrap (Text.trim piece)).filter (!·.isEmpty)

def check (term : List Char) : Except EngineFailure String :=
  match Expr.ofChars term with
  | .ok _ => .ok (String.ofList term)
  | .error fault =>
    .error (.malformed ("engine returned `" ++ String.ofList term ++ "`: " ++ fault.message))

/-- The terms of an engine's answer. -/
def read (output : String) : Except EngineFailure (List String) :=
  (pieces output.toList).mapM check

end ProductLine.Terms
