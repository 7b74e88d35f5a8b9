/- # What every step keeps — of calls, tickets and the world

Traffic keeps two logs, and what is kept says what they hold.  In each there is
one entry for each call that has come so far as to have one (`Records`).  The
tickets drawn from a book are its first ones (`TicketBook.Issued`), which is
where the numbers of the tickets come from.  And the world is what it was at the
start, but for what the engines have made of it on the requests that the second
log says they have got, in that order (`heardAll`).
-/
import Mathlib.Data.List.Nodup
import ProductLine.Proofs.Engine.Asked
import ProductLine.Proofs.Engine.Traffic

namespace ProductLine

variable {σ : Type}

/-! ## Logs

That a log records calls is kept by a new call, by a step that leaves the log
alone, and by a step that writes the call's entry. -/

/-- The log has one entry for each call of which `note` gives a request, and no other ones. -/
structure Records (calls : List (Call σ)) (note : Call σ → Option Request) (log : List Entry) :
    Prop where
  nodup : (log.map Entry.call).Nodup
  mem_iff : ∀ entry, entry ∈ log ↔ ∃ c, calls[entry.call]? = some c ∧
    c.member.family = entry.family ∧ note c = some entry.request

/-- The requests that a log has of a call. -/
def requestsOf (log : List Entry) (k : Nat) : List Request :=
  (log.filter fun entry => entry.call = k).map Entry.request

namespace Records

variable {calls : List (Call σ)} {note : Call σ → Option Request} {log : List Entry} {k : Nat}
  {c u : Call σ}

theorem nil (note : Call σ → Option Request) : Records [] note [] where
  nodup := List.nodup_nil
  mem_iff entry := by simp

theorem append (h : Records calls note log) (unnoted : note c = none) :
    Records (calls ++ [c]) note log where
  nodup := h.nodup
  mem_iff entry := by
    rw [h.mem_iff]
    constructor
    · rintro ⟨d, hd, rest⟩
      obtain ⟨inside, -⟩ := List.getElem?_eq_some_iff.mp hd
      exact ⟨d, by rw [List.getElem?_append_left inside, hd], rest⟩
    · rintro ⟨d, hd, family, noted⟩
      by_cases inside : entry.call < calls.length
      · rw [List.getElem?_append_left inside] at hd
        exact ⟨d, hd, family, noted⟩
      · rw [List.getElem?_append_right (by omega)] at hd
        obtain rfl := List.mem_singleton.mp (List.mem_of_getElem? hd)
        rw [unnoted] at noted
        cases noted

theorem getElem?_set_eq_some_iff (hc : calls[k]? = some c) {i : Nat} {d : Call σ} :
    (calls.set k u)[i]? = some d ↔ (i = k ∧ d = u) ∨ (i ≠ k ∧ calls[i]? = some d) := by
  obtain ⟨inside, -⟩ := List.getElem?_eq_some_iff.mp hc
  by_cases here : k = i
  · subst here
    simp [inside, eq_comm]
  · simp [List.getElem?_set_ne here, Ne.symm here]

theorem set (h : Records calls note log) (hc : calls[k]? = some c)
    (family : u.member.family = c.member.family) (same : note u = note c) :
    Records (calls.set k u) note log where
  nodup := h.nodup
  mem_iff entry := by
    rw [h.mem_iff]
    constructor
    · rintro ⟨d, hd, hfamily, noted⟩
      by_cases here : entry.call = k
      · obtain rfl := Option.some.inj (hc.symm.trans (here ▸ hd))
        exact ⟨u, (getElem?_set_eq_some_iff hc).mpr (.inl ⟨here, rfl⟩), family.trans hfamily,
          same.trans noted⟩
      · exact ⟨d, (getElem?_set_eq_some_iff hc).mpr (.inr ⟨here, hd⟩), hfamily, noted⟩
    · rintro ⟨d, hd, hfamily, noted⟩
      rcases (getElem?_set_eq_some_iff hc).mp hd with ⟨here, rfl⟩ | ⟨-, hd⟩
      · exact ⟨c, by rw [here, hc], family.symm.trans hfamily, same.symm.trans noted⟩
      · exact ⟨d, hd, hfamily, noted⟩

theorem write (h : Records calls note log) (hc : calls[k]? = some c)
    (family : u.member.family = c.member.family) (unnoted : note c = none) {request : Request}
    (noted : note u = some request) :
    Records (calls.set k u) note (log ++ [⟨k, c.member.family, request⟩]) where
  nodup := by
    have fresh : k ∉ log.map Entry.call := by
      rintro hk
      obtain ⟨entry, hentry, rfl⟩ := List.mem_map.mp hk
      obtain ⟨d, hd, -, hnote⟩ := (h.mem_iff entry).mp hentry
      obtain rfl := Option.some.inj (hc.symm.trans hd)
      rw [unnoted] at hnote
      cases hnote
    rw [List.map_append, List.map_singleton]
    exact h.nodup.append (List.nodup_singleton k) (List.disjoint_singleton.mpr fresh)
  mem_iff entry := by
    rw [List.mem_append, List.mem_singleton, h.mem_iff]
    constructor
    · rintro (⟨d, hd, hfamily, hnote⟩ | rfl)
      · have elsewhere : entry.call ≠ k := by
          rintro rfl
          obtain rfl := Option.some.inj (hc.symm.trans hd)
          rw [unnoted] at hnote
          cases hnote
        exact ⟨d, (getElem?_set_eq_some_iff hc).mpr (.inr ⟨elsewhere, hd⟩), hfamily, hnote⟩
      · exact ⟨u, (getElem?_set_eq_some_iff hc).mpr (.inl ⟨rfl, rfl⟩), family, noted⟩
    · rintro ⟨d, hd, hfamily, hnote⟩
      rcases (getElem?_set_eq_some_iff hc).mp hd with ⟨here, rfl⟩ | ⟨-, hd⟩
      · right
        obtain ⟨number, ofFamily, asked⟩ := entry
        obtain rfl : number = k := here
        obtain rfl := hfamily
        obtain rfl := Option.some.inj (noted.symm.trans hnote)
        rw [family]
      · exact .inl ⟨d, hd, hfamily, hnote⟩

theorem requestsOf_eq (h : Records calls note log) (hc : calls[k]? = some c) :
    requestsOf log k = (note c).toList := by
  unfold requestsOf
  cases hnote : note c with
  | none =>
    have none : log.filter (fun entry => entry.call = k) = [] := by
      refine List.filter_eq_nil_iff.mpr fun entry hentry hk => ?_
      obtain ⟨d, hd, -, noted⟩ := (h.mem_iff entry).mp hentry
      rw [decide_eq_true_eq] at hk
      obtain rfl := Option.some.inj (hc.symm.trans (hk ▸ hd))
      rw [hnote] at noted
      cases noted
    rw [none]
    rfl
  | some request =>
    have hentry : ⟨k, c.member.family, request⟩ ∈ log := (h.mem_iff _).mpr ⟨c, hc, rfl, hnote⟩
    obtain ⟨before, after, rfl⟩ := List.append_of_mem hentry
    have nodup := h.nodup
    rw [List.map_append, List.map_cons, List.nodup_middle, List.nodup_cons,
      ← List.map_append] at nodup
    have absent : k ∉ (before ++ after).map Entry.call := nodup.1
    have others (part : List Entry) (hpart : part ⊆ before ++ after) :
        part.filter (fun entry => entry.call = k) = [] := by
      refine List.filter_eq_nil_iff.mpr fun entry hmem hk => absent ?_
      rw [← decide_eq_true_eq.mp hk]
      exact List.mem_map_of_mem (hpart hmem)
    rw [List.filter_append, List.filter_cons_of_pos (by simp),
      others before (List.subset_append_left _ _), others after (List.subset_append_right _ _)]
    rfl

end Records

/-! ## What engines have heard -/

/-- The world after the engine has run on the request of an entry. -/
def heard (calls : List (Call σ)) (world : σ) (entry : Entry) : σ :=
  match calls[entry.call]? with
  | some c => ((c.member.engine.reply entry.request).run world).2
  | none => world

/-- The world after the engines have run on the requests of a log. -/
def heardAll (calls : List (Call σ)) (log : List Entry) (world : σ) : σ :=
  log.foldl (heard calls) world

section Heard

variable {calls : List (Call σ)} {log : List Entry} {k : Nat} {c u : Call σ}

theorem heardAll_append (log log' : List Entry) (world : σ) :
    heardAll calls (log ++ log') world = heardAll calls log' (heardAll calls log world) :=
  List.foldl_append ..

theorem heard_of_call (hc : calls[k]? = some c) (family : Nat) (request : Request) (world : σ) :
    heard calls world ⟨k, family, request⟩ = ((c.member.engine.reply request).run world).2 := by
  rw [heard, hc]

theorem heardAll_call (log : List Entry) (world : σ)
    (inside : ∀ entry ∈ log, entry.call < calls.length) :
    heardAll (calls ++ [c]) log world = heardAll calls log world := by
  refine List.foldl_ext _ _ _ fun before entry hentry => ?_
  rw [heard, heard, List.getElem?_append_left (inside entry hentry)]

/-- A call that has come further has the engine that it had. -/
theorem heardAll_set (hc : calls[k]? = some c) (member : u.member = c.member) (log : List Entry)
    (world : σ) : heardAll (calls.set k u) log world = heardAll calls log world := by
  refine List.foldl_ext _ _ _ fun before entry _ => ?_
  by_cases here : entry.call = k
  · obtain ⟨inside, -⟩ := List.getElem?_eq_some_iff.mp hc
    rw [heard, heard, here, hc, List.getElem?_set_self inside]
    dsimp only
    rw [member]
  · rw [heard, heard, List.getElem?_set_ne (Ne.symm here)]

/-- Engines that write down what they are asked have written down the log. -/
theorem log_heardAll {view : σ → List Request} (logs : ∀ c ∈ calls, c.member.engine.Logs view)
    (inside : ∀ entry ∈ log, entry.call < calls.length) (world : σ) :
    view (heardAll calls log world) = view world ++ log.map Entry.request := by
  induction log generalizing world with
  | nil => exact (List.append_nil _).symm
  | cons entry log ih =>
    obtain ⟨here, later⟩ := List.forall_mem_cons.mp inside
    have written : view (heard calls world entry) = view world ++ [entry.request] := by
      rw [heard, List.getElem?_eq_getElem here]
      exact logs _ (List.getElem_mem here) entry.request world
    rw [heardAll, List.foldl_cons, ← heardAll, ih later, written, List.append_assoc]
    rfl

end Heard

/-! ## Tickets of one book -/

/-- The entries of a family. -/
def entriesOf (log : List Entry) (family : Nat) : List Entry :=
  log.filter fun entry => entry.family = family

theorem entriesOf_append_self (log : List Entry) (entry : Entry) :
    entriesOf (log ++ [entry]) entry.family = entriesOf log entry.family ++ [entry] := by
  simp [entriesOf]

theorem entriesOf_append_of_ne (log : List Entry) {entry : Entry} {family : Nat}
    (h : entry.family ≠ family) : entriesOf (log ++ [entry]) family = entriesOf log family := by
  simp [entriesOf, h]

/-- The first `n` tickets of a family. -/
def TicketBook.firstTickets (family : FamilyId) (n : Nat) : List Ticket :=
  (List.range n).map fun i => ⟨family, .ofNat i⟩

/-- The entries are those for the first tickets of the book, and the next ticket comes after
them. -/
structure TicketBook.Issued (book : TicketBook) (entries : List Entry) : Prop where
  next : book.next = .ofNat entries.length
  tickets : entries.map (·.request.ticket) = firstTickets book.family entries.length

namespace TicketBook

theorem issued_nil (family : FamilyId) : Issued { family := family } [] where
  next := rfl
  tickets := rfl

theorem Issued.advance {book : TicketBook} {entries : List Entry} (h : book.Issued entries)
    {entry : Entry} (drawn : entry.request.ticket = book.ticket) :
    book.advance.Issued (entries ++ [entry]) where
  next := by
    rw [TicketBook.advance, h.next, List.length_append, List.length_singleton]
    simp
  tickets := by
    rw [List.map_append, h.tickets, List.map_singleton, drawn, ticket, h.next, List.length_append,
      List.length_singleton, firstTickets, firstTickets, List.range_succ, List.map_append,
      List.map_singleton]
    rfl

end TicketBook

namespace Normalizer

variable {n : Normalizer (StateM σ)} {expression : String}

theorem request_eq_ok_iff {request : Request} : n.request expression = .ok request ↔
    (∃ e, Expr.parse expression = .ok e) ∧ request = ⟨n.tickets.ticket, expression, n.timeout⟩ := by
  unfold Normalizer.request
  cases Expr.parse expression with
  | error fault => simp [Except.map]
  | ok e => simp [Except.map, eq_comm]

theorem request_eq_error_iff {fault : SyntaxFault} :
    n.request expression = .error fault ↔ Expr.parse expression = .error fault := by
  unfold Normalizer.request
  cases Expr.parse expression with
  | error fault => simp [Except.map]
  | ok e => simp [Except.map]

end Normalizer

/-! ## States -/

namespace Traffic

/-- What holds in every state that is reachable from the world `start`. -/
structure Kept (start : σ) (s : Traffic σ) : Prop where
  members : ∀ member ∈ s.members, member.family < s.books.length
  callers : ∀ c ∈ s.calls, c.member.family < s.books.length
  consistent : ∀ c ∈ s.calls, c.Consistent
  drawn : Records s.calls Call.drawn? s.drawn
  received : Records s.calls Call.received? s.received
  issued : ∀ (f : Nat) (book : TicketBook), s.books[f]? = some book →
    book.Issued (entriesOf s.drawn f)
  world : s.world = heardAll s.calls s.received start

theorem kept_start (start : σ) : Kept start { world := start } where
  members _ h := absurd h List.not_mem_nil
  callers _ h := absurd h List.not_mem_nil
  consistent _ h := absurd h List.not_mem_nil
  drawn := .nil _
  received := .nil _
  issued f book h := by simp at h
  world := rfl

section Step

variable {start : σ} {s : Traffic σ} {k : Nat} {c u : Call σ}

/-- What holds of all calls, and of one that has come further, holds of all after its step. -/
theorem forall_mem_set {p : Call σ → Prop} (all : ∀ c ∈ s.calls, p c) (h : p u) :
    ∀ c ∈ s.calls.set k u, p c := by
  intro c hc
  rcases List.mem_or_eq_of_mem_set hc with old | rfl
  · exact all c old
  · exact h

/-- What has been delivered is the request of a call. -/
theorem Kept.call_lt (h : Kept start s) : ∀ entry ∈ s.received, entry.call < s.calls.length := by
  intro entry hentry
  obtain ⟨c, hc, -⟩ := (h.received.mem_iff entry).mp hentry
  obtain ⟨inside, -⟩ := List.getElem?_eq_some_iff.mp hc
  exact inside

/-- Nothing has been drawn from a book that is not there yet. -/
theorem Kept.entriesOf_eq_nil (h : Kept start s) : entriesOf s.drawn s.books.length = [] := by
  refine List.filter_eq_nil_iff.mpr fun entry hentry hfamily => ?_
  obtain ⟨c, hc, family, -⟩ := (h.drawn.mem_iff entry).mp hentry
  have inside := h.callers c (List.mem_of_getElem? hc)
  rw [family, decide_eq_true_eq.mp hfamily] at inside
  exact Nat.lt_irrefl _ inside

theorem Kept.found (h : Kept start s) (engine : Engine (StateM σ)) (timeout : Duration)
    (id : FamilyId) : Kept start { s with
      books := s.books ++ [{ family := id }]
      members := s.members ++ [⟨s.books.length, engine, timeout⟩] } where
  members := by
    rw [List.length_append, List.length_singleton]
    refine List.forall_mem_append.mpr ⟨fun member hmember => ?_, ?_⟩
    · exact Nat.lt_succ_of_lt (h.members member hmember)
    · exact List.forall_mem_singleton.mpr (Nat.lt_succ_self _)
  callers c hc := by
    rw [List.length_append, List.length_singleton]
    exact Nat.lt_succ_of_lt (h.callers c hc)
  consistent := h.consistent
  drawn := h.drawn
  received := h.received
  world := h.world
  issued f book hbook := by
    by_cases old : f < s.books.length
    · rw [List.getElem?_append_left old] at hbook
      exact h.issued f book hbook
    · obtain ⟨inside, -⟩ := List.getElem?_eq_some_iff.mp hbook
      rw [List.length_append, List.length_singleton] at inside
      obtain rfl : f = s.books.length := by omega
      rw [List.getElem?_concat_length] at hbook
      obtain rfl := Option.some.inj hbook
      rw [h.entriesOf_eq_nil]
      exact TicketBook.issued_nil id

/-- A step of a call that draws no ticket and asks no engine. -/
theorem Kept.turn (h : Kept start s) (hc : s.calls[k]? = some c) (member : u.member = c.member)
    (consistent : u.Consistent) (drawn : u.drawn? = c.drawn?)
    (received : u.received? = c.received?) : Kept start { s with calls := s.calls.set k u } where
  members := h.members
  callers := by
    refine forall_mem_set h.callers ?_
    rw [member]
    exact h.callers c (List.mem_of_getElem? hc)
  consistent := forall_mem_set h.consistent consistent
  drawn := h.drawn.set hc (congrArg Member.family member) drawn
  received := h.received.set hc (congrArg Member.family member) received
  issued := h.issued
  world := by
    rw [heardAll_set hc member]
    exact h.world

theorem Kept.unasked (h : Kept start s) (hc : s.calls[k]? = some c) (begun : c.stage = .begun) :
    c.reply = none := by
  have consistent := h.consistent c (List.mem_of_getElem? hc)
  rwa [Call.Consistent, begun] at consistent

/-- The step that draws a ticket, which is the one that the book comes to next. -/
theorem Kept.draw (h : Kept start s) {book : TicketBook} {request : Request}
    (hc : s.calls[k]? = some c) (begun : c.stage = .begun)
    (hbook : s.books[c.member.family]? = some book)
    (hrequest : (c.member.normalizer book).request c.expression = .ok request) :
    Kept start { s with
      books := s.books.set c.member.family (c.member.normalizer book).advance.tickets
      calls := s.calls.set k { c with stage := .waiting request }
      drawn := s.drawn ++ [⟨k, c.member.family, request⟩] } := by
  obtain ⟨reads, hrequest⟩ := Normalizer.request_eq_ok_iff.mp hrequest
  have unasked := h.unasked hc begun
  refine ⟨?members, ?callers, ?consistent, ?drawn, ?received, ?issued, ?world⟩
  case members =>
    rw [List.length_set]
    exact h.members
  case callers =>
    rw [List.length_set]
    exact forall_mem_set h.callers (h.callers c (List.mem_of_getElem? hc))
  case consistent => exact forall_mem_set h.consistent ⟨by rw [hrequest], reads⟩
  case drawn =>
    refine h.drawn.write (u := { c with stage := .waiting request }) hc rfl ?_ rfl
    rw [Call.drawn?, begun]
    rfl
  case received =>
    refine h.received.set (u := { c with stage := .waiting request }) hc rfl ?_
    simp [Call.received?, unasked]
  case issued =>
    -- Of all books and logs, those of the call's own family are the ones that move on.
    intro f book' hbook'
    by_cases same : c.member.family = f
    · subst same
      obtain ⟨inside, -⟩ := List.getElem?_eq_some_iff.mp hbook
      rw [List.getElem?_set_self inside] at hbook'
      obtain rfl := Option.some.inj hbook'
      rw [entriesOf_append_self s.drawn ⟨k, c.member.family, request⟩]
      exact (h.issued _ book hbook).advance (by rw [hrequest]; rfl)
    · rw [List.getElem?_set_ne same] at hbook'
      rw [entriesOf_append_of_ne s.drawn same]
      exact h.issued f book' hbook'
  case world =>
    rw [heardAll_set (u := { c with stage := .waiting request }) hc rfl]
    exact h.world

/-- The step in which an engine runs on the request, in the world as it is. -/
theorem Kept.deliver (h : Kept start s) {request : Request} {reply : Reply} {world : σ}
    (hc : s.calls[k]? = some c) (hrequest : c.stage.carried? = some request)
    (unasked : c.reply = none)
    (runs : (c.member.engine.reply request).run s.world = (reply, world)) :
    Kept start { s with
      world := world
      calls := s.calls.set k { c with reply := some reply }
      received := s.received ++ [⟨k, c.member.family, request⟩] } := by
  have consistent := h.consistent c (List.mem_of_getElem? hc)
  refine ⟨h.members, ?callers, ?consistent, ?drawn, ?received, h.issued, ?world⟩
  case callers => exact forall_mem_set h.callers (h.callers c (List.mem_of_getElem? hc))
  case consistent =>
    refine forall_mem_set h.consistent ?_
    unfold Call.Consistent at consistent ⊢
    cases hstage : c.stage with
    | begun | refused | stranded | overflowed =>
      rw [hstage] at hrequest
      cases hrequest
    | waiting | settled =>
      rw [hstage] at consistent
      exact consistent
  case drawn => exact h.drawn.set (u := { c with reply := some reply }) hc rfl rfl
  case received =>
    refine h.received.write (u := { c with reply := some reply }) hc rfl ?_ ?_
    · simp [Call.received?, unasked]
    · simp [Call.received?, hrequest]
  case world =>
    rw [heardAll_set (u := { c with reply := some reply }) hc rfl, heardAll_append, ← h.world]
    exact ((heard_of_call hc _ _ _).trans (congrArg Prod.snd runs)).symm

/-- A call that waits does so with the request for its text. -/
theorem Kept.waits (h : Kept start s) (hc : s.calls[k]? = some c) {request : Request}
    (waiting : c.stage = .waiting request) :
    request.expression = c.expression ∧ ∃ e, Expr.parse c.expression = .ok e := by
  have consistent := h.consistent c (List.mem_of_getElem? hc)
  rwa [Call.Consistent, waiting] at consistent

theorem Kept.step {s' : Traffic σ} (h : Kept start s) (step : Step s s') : Kept start s' := by
  cases step with
  | found engine timeout id => exact h.found engine timeout id
  | @copy member timeout hmember =>
    refine ⟨?_, h.callers, h.consistent, h.drawn, h.received, h.issued, h.world⟩
    exact List.forall_mem_append.mpr
      ⟨h.members, List.forall_mem_singleton.mpr (h.members member hmember)⟩
  | @call member expression hmember =>
    refine ⟨h.members, ?_, ?_, h.drawn.append rfl, h.received.append rfl, h.issued, ?_⟩
    · exact List.forall_mem_append.mpr
        ⟨h.callers, List.forall_mem_singleton.mpr (h.members member hmember)⟩
    · exact List.forall_mem_append.mpr ⟨h.consistent, List.forall_mem_singleton.mpr rfl⟩
    · rw [heardAll_call _ _ h.call_lt]
      exact h.world
  | @refuse k c book fault hc begun hbook hrequest =>
    have unasked := h.unasked hc begun
    have malformed := Normalizer.request_eq_error_iff.mp hrequest
    refine h.turn (u := { c with stage := .refused fault }) hc rfl ⟨malformed, unasked⟩ ?_ ?_
    · rw [Call.drawn?, Call.drawn?, begun]
      rfl
    · simp [Call.received?, unasked]
  | draw hc begun hbook hrequest => exact h.draw hc begun hbook hrequest
  | deliver hc hrequest unasked runs => exact h.deliver hc hrequest unasked runs
  | settle hc waiting _ _ | expire hc waiting _ =>
    refine h.turn hc rfl (h.waits hc waiting) ?_ ?_
    · rw [Call.drawn?, Call.drawn?, waiting]
      rfl
    · rw [Call.received?, Call.received?, waiting]
      rfl
  | strand _ hc waiting unasked | overflow hc waiting unasked =>
    refine h.turn hc rfl ⟨h.waits hc waiting, unasked⟩ ?_ ?_
    · rw [Call.drawn?, Call.drawn?, waiting]
      rfl
    · simp [Call.received?, unasked]

theorem Kept.steps {s' : Traffic σ} (h : Kept start s) (steps : Steps s s') : Kept start s' := by
  induction steps with
  | refl => exact h
  | tail _ step ih => exact ih.step step

theorem Reachable.kept (h : Reachable start s) : Kept start s :=
  (kept_start start).steps h

end Step

end Traffic

end ProductLine
