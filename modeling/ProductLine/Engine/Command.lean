/- # The command engine — conversion by an external program

The program gets the expression on its input, after `Main_Exp: `, and the
ticket in its environment.  Its output is read as terms if it ends well; if
not, its error output is the reason.  An output that is not UTF-8 counts as
empty.
-/
import ProductLine.Engine.Basic
import ProductLine.Engine.Host
import ProductLine.Engine.Terms
import ProductLine.Text.Lines

namespace ProductLine

/-- The environment variable that holds the ticket of a request. -/
def ticketVariable : String := "FMC_CORRELATION_ID"

namespace Engine

variable {m : Type → Type} [Monad m]

/-- The invocation for a request, for which there may be no time left. -/
def invocation (program : String) (arguments : List String) (expired : Bool) (request : Request) :
    Invocation where
  program := program
  arguments := arguments
  environment := [(ticketVariable, request.ticket.text)]
  input := Text.encode ("Main_Exp: " ++ request.expression ++ "\n").toList
  patience := if expired then .zero else request.patience

def printed (bytes : List UInt8) : List Char :=
  (Text.decode? bytes).getD []

def answerOf (program : String) (execution : Execution) : Except EngineFailure (List String) :=
  match execution.status with
  | .exited 0 => Terms.read (String.ofList (printed execution.output))
  | status =>
    .error (.malformed ("`" ++ program ++ "` exited with " ++ status.text ++ ": " ++
      String.ofList (Text.trim (printed execution.errors))))

def unfinished (program : String) : EngineFailure :=
  .timeout ("`" ++ program ++ "` did not finish in time")

/-- The reply for a request.  If the deadline has passed already, a program that was started is
stopped before it has ended. -/
def commandReply (host : Host m) (program : String) (arguments : List String) (expired : Bool)
    (request : Request) : m Reply := do
  match ← host.run (invocation program arguments expired request) with
  | .error fault =>
    if expired && fault.afterEnd then
      return .ofAnswer (.error (unfinished program))
    else
      return { outcome := .answered (.error (.unavailable (fault.message program)))
               elapsed := fault.elapsed }
  | .ok execution =>
    if expired then
      return .ofAnswer (.error (unfinished program))
    else
      return { outcome := .answered (answerOf program execution), elapsed := execution.elapsed }

/-- The engine that runs a program on a host; `expired` says that requests come with a deadline
that has passed. -/
def command (host : Host m) (program : String) (arguments : List String) (expired : Bool) :
    Engine m where
  name := "command"
  reply := commandReply host program arguments expired

end Engine

end ProductLine
