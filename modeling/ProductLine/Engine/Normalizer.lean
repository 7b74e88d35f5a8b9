/- # Normalizers — asking an engine, with a limit on the wait

A normalizer refuses what is not an expression, draws a ticket, asks its
engine, and waits for so long and no longer.  Copies of a normalizer draw
their tickets from one counter; a normalizer is therefore a value that each
call returns anew, with the counter moved on.

A call that does not come back has no value here.  Where a timeout is so long
that the clock has no moment for its end, the call breaks off, with its ticket
drawn and before anything is asked.
-/
import ProductLine.Engine.Basic

namespace ProductLine

/-- An engine, the time to wait for it, and the tickets for its requests. -/
structure Normalizer (m : Type → Type) where
  engine : Engine m
  timeout : Duration
  tickets : TicketBook

namespace Normalizer

variable {m : Type → Type}

/-- How long to wait where nothing else is asked for. -/
def defaultTimeout : Duration := .ofSeconds 10

/-- The normalizer of the built-in engine with its default limits. -/
def default [Pure m] (tickets : TicketBook) : Normalizer m where
  engine := .builtin Cnf.defaultMaxClauses {}
  timeout := defaultTimeout
  tickets := tickets

/-- The request for an expression: one for every text that is an expression. -/
def request (n : Normalizer m) (expression : String) : Except SyntaxFault Request :=
  (Expr.parse expression).map fun _ => ⟨n.tickets.ticket, expression, n.timeout⟩

/-- The normalizer after one more ticket has been drawn. -/
def advance (n : Normalizer m) : Normalizer m :=
  { n with tickets := n.tickets.advance }

/-- The normalizer whose requests are carried by workers of which some do not start. -/
def staffed [Pure m] (n : Normalizer m) (idle : Ticket → Option String) : Normalizer m :=
  { n with engine := n.engine.staffed idle }

def late (n : Normalizer m) : EngineFailure :=
  .timeout ("no answer within " ++ n.timeout.text)

/-- A result that is there after so long, if that is in time. -/
def inTime (n : Normalizer m) (elapsed : Duration) (result : Except EngineFailure (List String)) :
    Except EngineFailure (List String) :=
  if n.timeout.micros ≤ elapsed.micros then .error n.late else result

/-- What the asker makes of a reply.  Nothing is waited for where no worker has started; a reply
that is not there in time is no answer. -/
def settle (n : Normalizer m) (reply : Reply) : Except EngineFailure (List String) :=
  match reply.outcome with
  | .answered answer => n.inTime reply.elapsed answer
  | .crashed =>
    n.inTime reply.elapsed (.error (.unavailable "engine worker stopped without an answer"))
  | .unstarted reason => .error (.unavailable ("cannot start worker: " ++ reason))

/-- The clauses of an expression, and the normalizer for the next call.  What is not an expression
reaches no engine and takes no ticket. -/
def normalize [Monad m] (n : Normalizer m) (expression : String) :
    m (Except EngineFailure (List String) × Normalizer m) :=
  match n.request expression with
  | .error fault => return (.error (.ofSyntax fault), n)
  | .ok request => do
    let reply ← n.engine.reply request
    return (n.settle reply, n.advance)

def normalizeAll [Monad m] (n : Normalizer m) :
    List String → m (List (Except EngineFailure (List String)) × Normalizer m)
  | [] => return ([], n)
  | e :: es => do
    let (result, n) ← n.normalize e
    let (results, n) ← n.normalizeAll es
    return (result :: results, n)

/-- The requests that reach the engine for a list of expressions, asked one after the other. -/
def requests (n : Normalizer m) : List String → List Request
  | [] => []
  | e :: es =>
    match n.request e with
    | .error _ => n.requests es
    | .ok request => request :: n.advance.requests es

end Normalizer

end ProductLine
