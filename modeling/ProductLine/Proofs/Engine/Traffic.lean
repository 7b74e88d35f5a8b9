/- # Traffic — calls of many normalizers, in any order of their steps

`Normalizer.normalize` is a call that nothing interrupts.  Copies of a
normalizer may be called side by side, though, and then the steps of their
calls come in any order.  What the calls share is the ticket book of their
family and the world that their engines act on:

| step | what is done | what it touches |
| :-- | :-- | :-- |
| `refuse`, `draw` | the text is read; if it is an expression, a ticket is drawn | the book |
| `deliver` | a worker runs the engine on the request | the world |
| `settle` | the reply of the engine comes | nothing shared |
| `expire` | time is over without a reply | nothing shared |
| `strand` | no worker could be started | nothing shared |
| `overflow` | there is no deadline to wait for, and the call breaks off | nothing shared |

A ticket is drawn in one step with the moving on of the book; reading a text
looks at nothing that changes, so it may stand in that step too.  A worker that
was started gets to its engine sooner or later, even if by then nobody waits for
it.  The last two steps are those of calls whose engine gets nothing: the system
has no worker for them, or their timeout is longer than the clock can tell.  The
ticket has been drawn by then.

What the engines do comes one after the other here, each run of an engine as a
whole.  Nothing is said of when a call goes on, so a run of steps is an
interleaving of any calls of any normalizers and their copies, and what holds in
every reachable state holds of all of them.  That the steps are those of
`normalize`, and no others, is `run_normalize_steps`.
-/
import Mathlib.Logic.Relation
import ProductLine.Engine.Normalizer

namespace ProductLine

variable {σ : Type}

/-! ## Calls -/

/-- A normalizer or a copy of one: the book of the family is elsewhere, under its number. -/
structure Member (σ : Type) where
  family : Nat
  engine : Engine (StateM σ)
  timeout : Duration

/-- The normalizer that the member is while its family's book stands so. -/
def Member.normalizer (member : Member σ) (book : TicketBook) : Normalizer (StateM σ) :=
  ⟨member.engine, member.timeout, book⟩

/-- How far a call has come. -/
inductive Stage where
  | begun
  | refused (fault : SyntaxFault)
  | waiting (request : Request)
  | settled (request : Request) (result : Except EngineFailure (List String))
  | stranded (request : Request) (reason : String)
  | overflowed (request : Request)

namespace Stage

/-- The request of a call that has made one. -/
def request? : Stage → Option Request
  | begun | refused _ => none
  | waiting request | settled request _ | stranded request _ | overflowed request => some request

/-- The request that a worker has, unless there is no worker. -/
def carried? : Stage → Option Request
  | waiting request | settled request _ => some request
  | begun | refused _ | stranded _ _ | overflowed _ => none

/-- There is no worker for the call's request. -/
def workerless : Stage → Bool
  | stranded _ _ | overflowed _ => true
  | begun | refused _ | waiting _ | settled _ _ => false

/-- What a call has come to, if it is over. -/
def result? : Stage → Option (Except EngineFailure (List String))
  | begun | waiting _ | overflowed _ => none
  | refused fault => some (.error (.ofSyntax fault))
  | settled _ result => some result
  | stranded _ reason => some (.error (.unavailable ("cannot start worker: " ++ reason)))

end Stage

/-- A call of a member, and the reply of the engine if it has got the request. -/
structure Call (σ : Type) where
  member : Member σ
  expression : String
  stage : Stage := .begun
  reply : Option Reply := none

namespace Call

/-- The request for which a ticket has been drawn. -/
def drawn? (c : Call σ) : Option Request :=
  c.stage.request?

/-- The request that the engine has got. -/
def received? (c : Call σ) : Option Request :=
  if c.reply.isSome then c.stage.carried? else none

theorem drawn_of_received {c : Call σ} {request : Request} (h : c.received? = some request) :
    c.drawn? = some request := by
  unfold received? at h
  unfold drawn?
  cases hstage : c.stage <;> simp_all [Stage.carried?, Stage.request?]

/-- The number of steps that are left. -/
def remaining (c : Call σ) : Nat :=
  match c.stage with
  | .begun => 3
  | .refused _ | .stranded _ _ | .overflowed _ => 0
  | .waiting _ => 1 + c.reply.isNone.toNat
  | .settled _ _ => c.reply.isNone.toNat

/-- The call is over, and no worker is on its way with the request. -/
def Ended (c : Call σ) : Prop :=
  c.remaining = 0

/-- The stage goes with the text, and only what a worker carries has a reply. -/
def Consistent (c : Call σ) : Prop :=
  match c.stage with
  | .begun => c.reply = none
  | .refused fault => Expr.parse c.expression = .error fault ∧ c.reply = none
  | .waiting request | .settled request _ =>
    request.expression = c.expression ∧ ∃ e, Expr.parse c.expression = .ok e
  | .stranded request _ | .overflowed request =>
    (request.expression = c.expression ∧ ∃ e, Expr.parse c.expression = .ok e) ∧ c.reply = none

theorem Consistent.of_drawn {c : Call σ} (h : c.Consistent) {request : Request}
    (drawn : c.drawn? = some request) :
    request.expression = c.expression ∧ ∃ e, Expr.parse c.expression = .ok e := by
  unfold Consistent at h
  unfold drawn? at drawn
  cases hstage : c.stage with
  | begun | refused =>
    rw [hstage] at drawn
    cases drawn
  | waiting | settled =>
    rw [hstage] at drawn h
    obtain rfl := Option.some.inj drawn
    exact h
  | stranded | overflowed =>
    rw [hstage] at drawn h
    obtain rfl := Option.some.inj drawn
    exact h.1

end Call

/-- A request, by the number of its call and of the family. -/
structure Entry where
  call : Nat
  family : Nat
  request : Request
deriving DecidableEq

/-- The world of the engines, the books of all families, the members and their calls, and two logs:
of the requests for which tickets have been drawn, and of those that engines have got, each in the
order of time. -/
structure Traffic (σ : Type) where
  world : σ
  books : List TicketBook := []
  members : List (Member σ) := []
  calls : List (Call σ) := []
  drawn : List Entry := []
  received : List Entry := []

namespace Traffic

/-- One step, of any call, or of somebody who makes a normalizer, copies one, or calls one. -/
inductive Step : Traffic σ → Traffic σ → Prop where
  | found {s : Traffic σ} (engine : Engine (StateM σ)) (timeout : Duration) (id : FamilyId) :
      Step s { s with
        books := s.books ++ [{ family := id }]
        members := s.members ++ [⟨s.books.length, engine, timeout⟩] }
  | copy {s : Traffic σ} {member : Member σ} (timeout : Duration) : member ∈ s.members →
      Step s { s with members := s.members ++ [{ member with timeout := timeout }] }
  | call {s : Traffic σ} {member : Member σ} (expression : String) : member ∈ s.members →
      Step s { s with calls := s.calls ++ [{ member := member, expression := expression }] }
  | refuse {s : Traffic σ} {k : Nat} {c : Call σ} {book : TicketBook} {fault : SyntaxFault} :
      s.calls[k]? = some c → c.stage = .begun → s.books[c.member.family]? = some book →
      (c.member.normalizer book).request c.expression = .error fault →
      Step s { s with calls := s.calls.set k { c with stage := .refused fault } }
  | draw {s : Traffic σ} {k : Nat} {c : Call σ} {book : TicketBook} {request : Request} :
      s.calls[k]? = some c → c.stage = .begun → s.books[c.member.family]? = some book →
      (c.member.normalizer book).request c.expression = .ok request →
      Step s { s with
        books := s.books.set c.member.family (c.member.normalizer book).advance.tickets
        calls := s.calls.set k { c with stage := .waiting request }
        drawn := s.drawn ++ [⟨k, c.member.family, request⟩] }
  | deliver {s : Traffic σ} {k : Nat} {c : Call σ} {request : Request} {reply : Reply} {world : σ} :
      s.calls[k]? = some c → c.stage.carried? = some request → c.reply = none →
      (c.member.engine.reply request).run s.world = (reply, world) →
      Step s { s with
        world := world
        calls := s.calls.set k { c with reply := some reply }
        received := s.received ++ [⟨k, c.member.family, request⟩] }
  | settle {s : Traffic σ} {k : Nat} {c : Call σ} {book : TicketBook} {request : Request}
      {reply : Reply} :
      s.calls[k]? = some c → c.stage = .waiting request → c.reply = some reply →
      s.books[c.member.family]? = some book →
      Step s { s with
        calls := s.calls.set k
          { c with stage := .settled request ((c.member.normalizer book).settle reply) } }
  | expire {s : Traffic σ} {k : Nat} {c : Call σ} {book : TicketBook} {request : Request} :
      s.calls[k]? = some c → c.stage = .waiting request → s.books[c.member.family]? = some book →
      Step s { s with
        calls := s.calls.set k
          { c with stage := .settled request (.error (c.member.normalizer book).late) } }
  | strand {s : Traffic σ} {k : Nat} {c : Call σ} {request : Request} (reason : String) :
      s.calls[k]? = some c → c.stage = .waiting request → c.reply = none →
      Step s { s with calls := s.calls.set k { c with stage := .stranded request reason } }
  | overflow {s : Traffic σ} {k : Nat} {c : Call σ} {request : Request} :
      s.calls[k]? = some c → c.stage = .waiting request → c.reply = none →
      Step s { s with calls := s.calls.set k { c with stage := .overflowed request } }

/-- Steps of whatever calls, one after the other. -/
abbrev Steps : Traffic σ → Traffic σ → Prop :=
  Relation.ReflTransGen Step

/-- Steps lead to the state from that of no normalizers in the world `start`. -/
def Reachable (start : σ) (s : Traffic σ) : Prop :=
  Steps { world := start } s

end Traffic

end ProductLine
