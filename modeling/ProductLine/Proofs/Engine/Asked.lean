/- # What reaches an engine — of the texts that a normalizer is called with

That a call asks its engine at all cannot be seen from its result: an engine
that is not asked might as well have given the same answer.  It can be seen by
an engine that writes down what it is asked, in whatever part of the world it
keeps its list (`Engine.Logs`).  After some calls the list has grown by the
requests of those texts that are expressions, as long as their workers have
started, and by nothing else.
-/
import ProductLine.Engine.Normalizer

namespace ProductLine

variable {σ : Type}

/-- The engine adds every request that it gets to a list. -/
def Engine.Logs (engine : Engine (StateM σ)) (log : σ → List Request) : Prop :=
  ∀ request world, log ((engine.reply request).run world).2 = log world ++ [request]

/-- The requests whose workers start. -/
def carried (idle : Ticket → Option String) (requests : List Request) : List Request :=
  requests.filter fun request => (idle request.ticket).isNone

namespace Normalizer

variable {n : Normalizer (StateM σ)} {log : σ → List Request} {idle : Ticket → Option String}

/-- A request is carried to the engine, or it is not, for want of a worker. -/
theorem log_reply_staffed (logs : n.engine.Logs log) (request : Request) (world : σ) :
    log (((n.staffed idle).engine.reply request).run world).2 =
      log world ++ carried idle [request] := by
  unfold staffed Engine.staffed carried
  cases hidle : idle request.ticket with
  | none =>
    simp only [hidle, List.filter_cons, Option.isNone_none, if_true, List.filter_nil]
    exact logs request world
  | some reason =>
    simp only [hidle, List.filter_cons, Option.isNone_some, Bool.false_eq_true, if_false,
      List.filter_nil, List.append_nil]
    rfl

variable {expression : String}

theorem run_normalize_of_error {fault : SyntaxFault} (h : n.request expression = .error fault)
    (world : σ) : ((n.staffed idle).normalize expression).run world =
      ((.error (.ofSyntax fault), n.staffed idle), world) := by
  have refused : (n.staffed idle).request expression = .error fault := h
  rw [normalize, refused]
  rfl

theorem run_normalize_of_ok {request : Request} (h : n.request expression = .ok request)
    (world : σ) : ((n.staffed idle).normalize expression).run world =
      let replied := ((n.staffed idle).engine.reply request).run world
      ((n.settle replied.1, n.advance.staffed idle), replied.2) := by
  have asked : (n.staffed idle).request expression = .ok request := h
  rw [normalize, asked]
  rfl

/-- A call has one request for its engine if its text is an expression, and none otherwise. -/
theorem log_normalize (logs : n.engine.Logs log) (expression : String) (world : σ) :
    log (((n.staffed idle).normalize expression).run world).2 =
      log world ++ carried idle (n.requests [expression]) := by
  unfold requests
  cases hrequest : n.request expression with
  | error fault =>
    rw [run_normalize_of_error hrequest]
    exact (List.append_nil _).symm
  | ok request =>
    rw [run_normalize_of_ok hrequest]
    exact log_reply_staffed logs request world

/-- Calls one after the other have the requests that each has in its turn. -/
theorem log_normalizeAll (logs : n.engine.Logs log) (expressions : List String) (world : σ) :
    log (((n.staffed idle).normalizeAll expressions).run world).2 =
      log world ++ carried idle (n.requests expressions) := by
  induction expressions generalizing n world with
  | nil => exact (List.append_nil _).symm
  | cons e es ih =>
    rw [normalizeAll, StateT.run_bind]
    unfold requests
    cases hrequest : n.request e with
    | error fault =>
      rw [run_normalize_of_error hrequest]
      exact ih logs world
    | ok request =>
      rw [run_normalize_of_ok hrequest]
      refine (ih (n := n.advance) logs _).trans ?_
      rw [log_reply_staffed logs, List.append_assoc]
      exact congrArg _ (List.filter_append [request] _).symm

end Normalizer

end ProductLine
