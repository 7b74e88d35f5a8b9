/- # Engines — whatever converts an expression into clauses

An engine answers requests with replies, as actions of a monad `m`: the
engine that converts in place, `Engine.builtin`, acts in any monad and
touches nothing, while a program acts on the files beside it.  A reply says
what came back and after how long; whether that was too late is for the
asker to say.

Each request is carried to the engine by a worker of its own, and a worker
that cannot be started carries nothing (`Engine.staffed`).
-/
import ProductLine.Duration
import ProductLine.Engine.Failure
import ProductLine.Engine.Ticket
import ProductLine.Expr.Read

namespace ProductLine

/-- What an engine is asked, and how long the asker is ready to wait. -/
structure Request where
  ticket : Ticket
  expression : String
  patience : Duration
deriving DecidableEq

/-- What an engine's run ends with: an answer, or a crash that leaves none; or there was no run, for
want of a worker. -/
inductive Outcome where
  | answered (answer : Except EngineFailure (List String))
  | crashed
  | unstarted (reason : String)

/-- What comes back from an engine, and after how long. -/
structure Reply where
  outcome : Outcome
  elapsed : Duration := .zero

def Reply.ofAnswer (answer : Except EngineFailure (List String)) : Reply :=
  { outcome := .answered answer }

/-- Something that converts expressions into clauses, given as texts. -/
structure Engine (m : Type → Type) where
  name : String
  reply : Request → m Reply

/-- How a conversion goes in time. -/
structure Pace where
  clock : Cnf.Clock := .ample
  elapsed : Duration := .zero

namespace Engine

/-- The answer of the built-in engine: the clauses' texts. -/
def convertText (limits : Cnf.Limits) (expression : String) :
    Except EngineFailure (List String) :=
  match Expr.parse expression with
  | .error fault => .error (.ofSyntax fault)
  | .ok e =>
    match Cnf.convert limits e with
    | .error cutoff => .error (.ofCutoff cutoff)
    | .ok cs => .ok (cs.map Clause.text)

/-- The built-in engine, with a budget for the number of clauses. -/
def builtin {m : Type → Type} [Pure m] (maxClauses : Nat) (pace : Pace) : Engine m where
  name := "builtin"
  reply request := pure
    { outcome := .answered (convertText ⟨maxClauses, pace.clock⟩ request.expression)
      elapsed := pace.elapsed }

/-- The engine behind workers of which some do not start: for the requests that `idle` gives a
reason for, it is not asked. -/
def staffed {m : Type → Type} [Pure m] (idle : Ticket → Option String) (engine : Engine m) :
    Engine m where
  name := engine.name
  reply request :=
    match idle request.ticket with
    | none => engine.reply request
    | some reason => pure { outcome := .unstarted reason }

/-- The engine's reply depends on the expression alone, and asking it has no effect. -/
def DependsOnExpression {m : Type → Type} [Pure m] (engine : Engine m) : Prop :=
  ∃ answer : String → Reply, ∀ request, engine.reply request = pure (answer request.expression)

end Engine

end ProductLine
