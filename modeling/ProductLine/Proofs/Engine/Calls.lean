/- # Calls — what comes of each call, whatever the others do

Three things are said of calls whose steps mix in any order.

* The steps of one call in a row are a call of `normalize`, in any world, with
  any engine and whether its worker starts or not: the results are the same, the
  books are, and the worlds that the engine leaves.  So `Traffic` adds nothing to
  `normalize` but the order of steps, and what it says of the requests that reach
  engines is said of `normalize`.
* A call can always go on until it is over, and by then it has been refused, or
  its engine has got one request, or there was no worker for it.  No call waits
  for another one.
* The tickets of a family are numbered from zero in the order in which they are
  drawn, and no two requests at all have tickets with one text.

The last one needs that no counter comes round to zero again, that no two
families have been given one identifier, and that identifiers are spelled so
that they can be told apart; all of that is assumed where it is used.
-/
import Mathlib.Data.List.Perm.Subperm
import ProductLine.Proofs.Engine.Kept
import ProductLine.Proofs.Engine.Ticket

namespace ProductLine

variable {σ : Type}

namespace Traffic

variable {start : σ} {s : Traffic σ} {k : Nat} {c : Call σ} {book : TicketBook} {request : Request}

/-! ## The steps of one call -/

theorem getElem?_set_self {c' : Call σ} (hc : s.calls[k]? = some c) :
    (s.calls.set k c')[k]? = some c' := by
  obtain ⟨inside, -⟩ := List.getElem?_eq_some_iff.mp hc
  exact List.getElem?_set_self inside

/-- A step that touches nothing but the call. -/
theorem exists_turn {u : Call σ} (hc : s.calls[k]? = some c)
    (step : Step s { s with calls := s.calls.set k u }) :
    ∃ s', Step s s' ∧ s'.calls[k]? = some u ∧ s'.books = s.books ∧ s'.received = s.received ∧
      s'.world = s.world :=
  ⟨_, step, getElem?_set_self hc, rfl, rfl, rfl⟩

theorem exists_draw (hc : s.calls[k]? = some c) (begun : c.stage = .begun)
    (hbook : s.books[c.member.family]? = some book)
    (hrequest : (c.member.normalizer book).request c.expression = .ok request) :
    ∃ s', Step s s' ∧ s'.calls[k]? = some { c with stage := .waiting request } ∧
      s'.books[c.member.family]? = some book.advance ∧ s'.received = s.received ∧
      s'.world = s.world := by
  obtain ⟨inside, -⟩ := List.getElem?_eq_some_iff.mp hbook
  exact ⟨_, .draw hc begun hbook hrequest, getElem?_set_self hc, List.getElem?_set_self inside,
    rfl, rfl⟩

theorem exists_deliver (hc : s.calls[k]? = some c) (hrequest : c.stage.carried? = some request)
    (unasked : c.reply = none) : ∃ s', Step s s' ∧
      s'.calls[k]? = some
        { c with reply := some ((c.member.engine.reply request).run s.world).1 } ∧
      s'.books = s.books ∧ s'.received = s.received ++ [⟨k, c.member.family, request⟩] ∧
      s'.world = ((c.member.engine.reply request).run s.world).2 :=
  ⟨_, .deliver hc hrequest unasked rfl, getElem?_set_self hc, rfl, rfl, rfl⟩

/-- Steps of the call lead to its end, with the result, the book and the world that `normalize` has
where the workers that do not start are the `idle` ones; and the engine gets what it gets there. -/
structure RunsAlone (s : Traffic σ) (k : Nat) (c : Call σ) (book : TicketBook)
    (idle : Ticket → Option String) (s' : Traffic σ) (c' : Call σ) : Prop where
  steps : Steps s s'
  call : s'.calls[k]? = some c'
  ended : c'.Ended
  received : s'.received = s.received ++
    (carried idle ((c.member.normalizer book).requests [c.expression])).map
      fun request => ⟨k, c.member.family, request⟩
  run : ∃ result book', c'.stage.result? = some result ∧
    s'.books[c.member.family]? = some book' ∧
    (((c.member.normalizer book).staffed idle).normalize c.expression).run s.world =
      ((result, (c.member.normalizer book').staffed idle), s'.world)

/-- A call of `normalize` takes the steps of a call, with no other call's steps between them. -/
theorem run_normalize_steps (hc : s.calls[k]? = some c) (begun : c.stage = .begun)
    (unasked : c.reply = none) (hbook : s.books[c.member.family]? = some book)
    (idle : Ticket → Option String) : ∃ s' c', RunsAlone s k c book idle s' c' := by
  cases hrequest : (c.member.normalizer book).request c.expression with
  | error fault =>
    obtain ⟨s', refuse, hc', books, received, world⟩ :=
      exists_turn hc (.refuse hc begun hbook hrequest)
    refine ⟨s', _, .single refuse, hc', rfl, ?_, _, book, rfl, by rw [books, hbook], ?_⟩
    · rw [received, Normalizer.requests, hrequest]
      exact (List.append_nil _).symm
    · rw [Normalizer.run_normalize_of_error hrequest, world]
  | ok request =>
    obtain ⟨s₁, draw, hc₁, hbook₁, received₁, world₁⟩ := exists_draw hc begun hbook hrequest
    cases hidle : idle request.ticket with
    | some reason =>
      obtain ⟨s₂, strand, hc₂, books₂, received₂, world₂⟩ :=
        exists_turn hc₁ (.strand reason hc₁ rfl unasked)
      have steps : Steps s s₂ := (Relation.ReflTransGen.single draw).tail strand
      refine ⟨s₂, _, steps, hc₂, rfl, ?_, _, book.advance, rfl, by rw [books₂, hbook₁], ?_⟩
      · rw [received₂, received₁, Normalizer.requests, hrequest]
        simp [carried, hidle, Normalizer.requests]
      · rw [Normalizer.run_normalize_of_ok hrequest, world₂, world₁]
        simp only [Normalizer.staffed, Engine.staffed, hidle]
        rfl
    | none =>
      obtain ⟨s₂, deliver, hc₂, books₂, received₂, world₂⟩ := exists_deliver hc₁ rfl unasked
      have hbook₂ : s₂.books[c.member.family]? = some book.advance := by rw [books₂, hbook₁]
      obtain ⟨s₃, settle, hc₃, books₃, received₃, world₃⟩ :=
        exists_turn hc₂ (.settle hc₂ rfl rfl hbook₂)
      have steps : Steps s s₃ := ((Relation.ReflTransGen.single draw).tail deliver).tail settle
      refine ⟨s₃, _, steps, hc₃, rfl, ?_, _, book.advance, rfl, by rw [books₃, hbook₂], ?_⟩
      · rw [received₃, received₂, received₁, Normalizer.requests, hrequest]
        simp [carried, hidle, Normalizer.requests]
      · rw [Normalizer.run_normalize_of_ok hrequest, world₃, world₂, world₁]
        simp only [Normalizer.staffed, Engine.staffed, hidle]
        rfl

/-! ## Every call can come to its end -/

/-- Whatever the other calls have come to, a call that is not over can take a step, and lack of
workers need not hold it up. -/
theorem Kept.exists_step (h : Kept start s) (hc : s.calls[k]? = some c) (unended : ¬ c.Ended) :
    ∃ s' c', Step s s' ∧ s'.calls[k]? = some c' ∧ c'.member = c.member ∧
      c'.expression = c.expression ∧ c'.stage.workerless = c.stage.workerless ∧
      c'.remaining < c.remaining := by
  have consistent := h.consistent c (List.mem_of_getElem? hc)
  have family := h.callers c (List.mem_of_getElem? hc)
  have hbook := List.getElem?_eq_getElem family
  unfold Call.Ended Call.remaining at unended
  unfold Call.Consistent at consistent
  cases hstage : c.stage with
  | begun =>
    rw [hstage] at consistent
    cases hrequest : (c.member.normalizer s.books[c.member.family]).request c.expression with
    | error fault =>
      obtain ⟨s', step, hc', -⟩ := exists_turn hc (.refuse hc hstage hbook hrequest)
      exact ⟨s', _, step, hc', rfl, rfl, rfl, by simp [Call.remaining, hstage]⟩
    | ok request =>
      obtain ⟨s', step, hc', -⟩ := exists_draw hc hstage hbook hrequest
      exact ⟨s', _, step, hc', rfl, rfl, rfl, by simp [Call.remaining, hstage, consistent]⟩
  | refused | stranded | overflowed =>
    rw [hstage] at unended
    exact absurd rfl unended
  | waiting request =>
    cases hreply : c.reply with
    | none =>
      obtain ⟨s', step, hc', -⟩ := exists_deliver hc (by rw [hstage]; rfl) hreply
      exact ⟨s', _, step, hc', rfl, rfl, by simp [hstage], by simp [Call.remaining, hstage, hreply]⟩
    | some reply =>
      obtain ⟨s', step, hc', -⟩ := exists_turn hc (.settle hc hstage hreply hbook)
      exact ⟨s', _, step, hc', rfl, rfl, rfl, by simp [Call.remaining, hstage, hreply]⟩
  | settled request result =>
    cases hreply : c.reply with
    | none =>
      obtain ⟨s', step, hc', -⟩ := exists_deliver hc (by rw [hstage]; rfl) hreply
      exact ⟨s', _, step, hc', rfl, rfl, by simp [hstage], by simp [Call.remaining, hstage, hreply]⟩
    | some reply =>
      rw [hstage] at unended
      exact absurd (by simp [hreply]) unended

/-- From every reachable state on, a call can be brought to its end. -/
theorem Kept.exists_ended (h : Kept start s) (hc : s.calls[k]? = some c) :
    ∃ s' c', Steps s s' ∧ s'.calls[k]? = some c' ∧ c'.member = c.member ∧
      c'.expression = c.expression ∧ c'.stage.workerless = c.stage.workerless ∧ c'.Ended := by
  -- Each step of the call leaves it fewer steps, whatever state it leaves behind.
  induction hleft : c.remaining using Nat.strongRecOn generalizing s c with
  | ind left ih =>
    by_cases ended : c.Ended
    · exact ⟨s, c, .refl, hc, rfl, rfl, rfl, ended⟩
    · obtain ⟨s₁, c₁, step, hc₁, member₁, text₁, workers₁, less⟩ := h.exists_step hc ended
      obtain ⟨s', c', steps, hc', member', text', workers', ended'⟩ :=
        ih c₁.remaining (hleft ▸ less) (h.step step) hc₁ rfl
      exact ⟨s', c', .head step steps, hc', member'.trans member₁, text'.trans text₁,
        workers'.trans workers₁, ended'⟩

/-! ## What each call leaves in the logs -/

/-- A call whose text is no expression has nothing in either log. -/
theorem Kept.requestsOf_of_malformed (h : Kept start s) (hc : s.calls[k]? = some c)
    {fault : SyntaxFault} (malformed : Expr.parse c.expression = .error fault) :
    requestsOf s.drawn k = [] ∧ requestsOf s.received k = [] := by
  have undrawn : c.drawn? = none := by
    refine Option.eq_none_iff_forall_ne_some.mpr fun request drawn => ?_
    obtain ⟨-, e, reads⟩ := (h.consistent c (List.mem_of_getElem? hc)).of_drawn drawn
    cases malformed.symm.trans reads
  have unreceived : c.received? = none := by
    refine Option.eq_none_iff_forall_ne_some.mpr fun request received => ?_
    cases undrawn.symm.trans (Call.drawn_of_received received)
  rw [h.drawn.requestsOf_eq hc, h.received.requestsOf_eq hc, undrawn, unreceived]
  exact ⟨rfl, rfl⟩

/-- A call whose text is an expression has drawn one ticket by the time it is over, and its engine
has got the request unless there was no worker. -/
theorem Kept.exists_requestsOf_of_ended (h : Kept start s) (hc : s.calls[k]? = some c) {e : Expr}
    (reads : Expr.parse c.expression = .ok e) (ended : c.Ended) :
    ∃ request, request.expression = c.expression ∧ requestsOf s.drawn k = [request] ∧
      requestsOf s.received k = if c.stage.workerless then [] else [request] := by
  have consistent := h.consistent c (List.mem_of_getElem? hc)
  rw [h.drawn.requestsOf_eq hc, h.received.requestsOf_eq hc, Call.drawn?, Call.received?]
  unfold Call.Ended Call.remaining at ended
  unfold Call.Consistent at consistent
  cases hstage : c.stage with
  | begun =>
    rw [hstage] at ended
    cases ended
  | refused fault =>
    rw [hstage] at consistent
    cases consistent.1.symm.trans reads
  | waiting request =>
    rw [hstage] at ended
    exact absurd ended (by simp)
  | settled request result =>
    rw [hstage] at consistent ended
    have replied : c.reply.isSome = true := by simpa using ended
    refine ⟨request, consistent.1, rfl, ?_⟩
    rw [replied]
    rfl
  | stranded request _ | overflowed request =>
    rw [hstage] at consistent
    refine ⟨request, consistent.1.1, rfl, ?_⟩
    rw [consistent.2]
    rfl

/-! ## Numbers and texts -/

/-- The numbers of the calls of a family. -/
def callsIn (s : Traffic σ) (family : Nat) : List Nat :=
  (List.range s.calls.length).filter fun k => (s.calls[k]?).any (·.member.family = family)

/-- A family has drawn no more tickets than it has had calls. -/
theorem Kept.length_entriesOf_le (h : Kept start s) (family : Nat) :
    (entriesOf s.drawn family).length ≤ (s.callsIn family).length := by
  have distinct : ((entriesOf s.drawn family).map Entry.call).Nodup :=
    h.drawn.nodup.sublist ((List.filter_sublist).map Entry.call)
  have inside : (entriesOf s.drawn family).map Entry.call ⊆ s.callsIn family := by
    intro k hk
    obtain ⟨entry, hentry, rfl⟩ := List.mem_map.mp hk
    obtain ⟨hdrawn, hfamily⟩ := List.mem_filter.mp hentry
    obtain ⟨c, hc, member, -⟩ := (h.drawn.mem_iff entry).mp hdrawn
    obtain ⟨bound, -⟩ := List.getElem?_eq_some_iff.mp hc
    refine List.mem_filter.mpr ⟨List.mem_range.mpr bound, ?_⟩
    simpa [hc, member] using hfamily
  have shorter := (List.subperm_of_subset distinct inside).length_le
  rwa [List.length_map] at shorter

theorem toNat_sequence_firstTickets (family : FamilyId) {n : Nat} (h : n ≤ 2 ^ 64) :
    (TicketBook.firstTickets family n).map (·.sequence.toNat) = List.range n := by
  rw [TicketBook.firstTickets, List.map_map]
  conv_rhs => rw [← List.map_id (List.range n)]
  refine List.map_congr_left fun i hi => ?_
  have small : i < 2 ^ 64 := Nat.lt_of_lt_of_le (List.mem_range.mp hi) h
  exact Nat.mod_eq_of_lt small

/-- A ticket that has been drawn names the family of its book. -/
theorem Kept.exists_book (h : Kept start s) {entry : Entry} (hentry : entry ∈ s.drawn) :
    ∃ book, s.books[entry.family]? = some book ∧ entry.request.ticket.family = book.family := by
  obtain ⟨c, hc, family, -⟩ := (h.drawn.mem_iff entry).mp hentry
  have inside := h.callers c (List.mem_of_getElem? hc)
  rw [family] at inside
  have hbook := List.getElem?_eq_getElem inside
  refine ⟨_, hbook, ?_⟩
  have hticket : entry.request.ticket ∈
      (entriesOf s.drawn entry.family).map (·.request.ticket) :=
    List.mem_map_of_mem (f := fun entry => entry.request.ticket)
      (List.mem_filter.mpr ⟨hentry, by simp⟩)
  rw [(h.issued _ _ hbook).tickets, TicketBook.firstTickets] at hticket
  obtain ⟨i, -, drawn⟩ := List.mem_map.mp hticket
  rw [← drawn]

section Bounded

variable (h : Kept start s) (few : ∀ f, (s.callsIn f).length < 2 ^ 64)
include h few

theorem Kept.numbers {f : Nat} (hbook : s.books[f]? = some book) :
    (entriesOf s.drawn f).map (·.request.ticket.sequence.toNat) =
        List.range (entriesOf s.drawn f).length ∧
      book.next.toNat = (entriesOf s.drawn f).length := by
  have small : (entriesOf s.drawn f).length < 2 ^ 64 :=
    Nat.lt_of_le_of_lt (h.length_entriesOf_le f) (few f)
  have issued := h.issued f book hbook
  constructor
  · rw [← toNat_sequence_firstTickets book.family (Nat.le_of_lt small), ← issued.tickets,
      List.map_map]
    rfl
  · rw [issued.next]
    exact Nat.mod_eq_of_lt small

/-- Requests whose tickets have one text are one request. -/
theorem Kept.eq_of_text {spell : FamilyId → String} (spelling : FamilySpelling spell)
    (apart : (s.books.map TicketBook.family).Nodup) {entry entry' : Entry}
    (hentry : entry ∈ s.drawn) (hentry' : entry' ∈ s.drawn)
    (same : entry.request.ticket.textBy spell = entry'.request.ticket.textBy spell) :
    entry = entry' := by
  have tickets : entry.request.ticket = entry'.request.ticket := spelling.textBy_injective same
  obtain ⟨book, hbook, family⟩ := h.exists_book hentry
  obtain ⟨book', hbook', family'⟩ := h.exists_book hentry'
  have ids : book.family = book'.family := by rw [← family, ← family', tickets]
  have families : entry.family = entry'.family := by
    obtain ⟨inside, -⟩ := List.getElem?_eq_some_iff.mp hbook
    refine (List.getElem?_inj (by rwa [List.length_map]) apart).mp ?_
    rw [List.getElem?_map, List.getElem?_map, hbook, hbook', Option.map_some, Option.map_some, ids]
  have distinct : ((entriesOf s.drawn entry.family).map
      (·.request.ticket.sequence.toNat)).Nodup := by
    rw [(h.numbers few hbook).1]
    exact List.nodup_range
  refine List.inj_on_of_nodup_map distinct ?_ ?_ (by rw [tickets])
  · exact List.mem_filter.mpr ⟨hentry, by simp⟩
  · exact List.mem_filter.mpr ⟨hentry', by simp [families]⟩

end Bounded

/-- Only what a ticket has been drawn for reaches an engine. -/
theorem Kept.received_subset (h : Kept start s) : s.received ⊆ s.drawn := by
  intro entry hentry
  obtain ⟨c, hc, family, received⟩ := (h.received.mem_iff entry).mp hentry
  exact (h.drawn.mem_iff entry).mpr ⟨c, hc, family, Call.drawn_of_received received⟩

/-- Engines that write down what they are asked have written down the second log. -/
theorem Kept.log_world (h : Kept start s) {log : σ → List Request}
    (logs : ∀ c ∈ s.calls, c.member.engine.Logs log) :
    log s.world = log start ++ s.received.map Entry.request := by
  rw [h.world]
  exact log_heardAll logs h.call_lt start

/-- What is promised of all calls so far, if families are written as `spell` has it and the world
was `start` before any of them.  Entries are counted by calls, so a request that is in a log twice
would be a second one. -/
structure Orderly (spell : FamilyId → String) (start : σ) (s : Traffic σ) : Prop where
  /-- Every request is one of a call of its family, over or not, and has its text. -/
  owned : ∀ entry, entry ∈ s.drawn ∨ entry ∈ s.received →
    ∃ c, s.calls[entry.call]? = some c ∧ c.member.family = entry.family ∧
      entry.request.expression = c.expression
  malformed : ∀ (k : Nat) (c : Call σ) (fault : SyntaxFault), s.calls[k]? = some c →
    Expr.parse c.expression = .error fault →
    requestsOf s.drawn k = [] ∧ requestsOf s.received k = []
  wellFormed : ∀ (k : Nat) (c : Call σ) (e : Expr), s.calls[k]? = some c →
    Expr.parse c.expression = .ok e → c.Ended →
    ∃ request, request.expression = c.expression ∧ requestsOf s.drawn k = [request] ∧
      requestsOf s.received k = if c.stage.workerless then [] else [request]
  /-- The world has been touched by engines alone, which were run on the requests of the log. -/
  world : s.world = heardAll s.calls s.received start
  heard : ∀ log : σ → List Request, (∀ c ∈ s.calls, c.member.engine.Logs log) →
    log s.world = log start ++ s.received.map Entry.request
  /-- `normalize` runs the engine on the one request of an expression, if it has a worker, and on
  nothing for any other text. -/
  asked : ∀ c ∈ s.calls, ∀ log : σ → List Request, c.member.engine.Logs log →
    ∀ (book : TicketBook) (idle : Ticket → Option String) (world : σ),
    log ((((c.member.normalizer book).staffed idle).normalize c.expression).run world).2 =
      log world ++ carried idle ((c.member.normalizer book).requests [c.expression])
  ends : ∀ (k : Nat) (c : Call σ), s.calls[k]? = some c →
    ∃ s' c', Steps s s' ∧ s'.calls[k]? = some c' ∧ c'.member = c.member ∧
      c'.expression = c.expression ∧ c'.stage.workerless = c.stage.workerless ∧ c'.Ended
  /-- The numbers of a family's tickets, in the order in which they were drawn. -/
  numbers : ∀ (f : Nat) (book : TicketBook), s.books[f]? = some book →
    (entriesOf s.drawn f).map (·.request.ticket.sequence.toNat) =
        List.range (entriesOf s.drawn f).length ∧
      book.next.toNat = (entriesOf s.drawn f).length
  families : ∀ entry ∈ s.drawn, ∃ book, s.books[entry.family]? = some book ∧
    entry.request.ticket.family = book.family
  apart : (s.drawn.map (·.request.ticket.textBy spell)).Nodup ∧
    (s.received.map (·.request.ticket.textBy spell)).Nodup
  /-- The steps of a call with no others between them are a call of `normalize`. -/
  alone : ∀ (k : Nat) (c : Call σ) (book : TicketBook) (idle : Ticket → Option String),
    s.calls[k]? = some c → c.stage = .begun → s.books[c.member.family]? = some book →
    ∃ s' c', RunsAlone s k c book idle s' c'

/-- In whatever order the calls of any normalizers and their copies take their steps: what is no
expression reaches no engine and takes no number; every other call comes to one request with its
text, on which its engine is run, once, as soon as there is a worker; the numbers of a family are
those from zero on, each once; and no two requests show the same ticket, as long as no family has
had too many calls and no two have drawn the same identifier. -/
theorem orderly_of_reachable {spell : FamilyId → String} (spelling : FamilySpelling spell)
    (reachable : Reachable start s) (few : ∀ f, (s.callsIn f).length < 2 ^ 64)
    (different : (s.books.map TicketBook.family).Nodup) : s.Orderly spell start := by
  have h := reachable.kept
  refine ⟨?owned, ?malformed, ?wellFormed, h.world, ?heard, ?asked, ?ends, ?numbers, ?families,
    ?apart, ?alone⟩
  case owned =>
    intro entry hentry
    obtain ⟨c, hc, family, noted⟩ :=
      (h.drawn.mem_iff entry).mp (hentry.elim id fun received => h.received_subset received)
    exact ⟨c, hc, family, ((h.consistent c (List.mem_of_getElem? hc)).of_drawn noted).1⟩
  case malformed =>
    intro k c fault hc malformed
    exact h.requestsOf_of_malformed hc malformed
  case wellFormed =>
    intro k c e hc reads ended
    exact h.exists_requestsOf_of_ended hc reads ended
  case heard =>
    intro log logs
    exact h.log_world logs
  case asked =>
    intro c _ log logs book idle world
    exact Normalizer.log_normalize (n := c.member.normalizer book) logs c.expression world
  case ends =>
    intro k c hc
    exact h.exists_ended hc
  case numbers =>
    intro f book hbook
    exact h.numbers few hbook
  case families =>
    intro entry hentry
    exact h.exists_book hentry
  case apart =>
    have unique : ∀ entry ∈ s.drawn, ∀ entry' ∈ s.drawn,
        entry.request.ticket.textBy spell = entry'.request.ticket.textBy spell → entry = entry' :=
      fun entry hentry entry' hentry' => h.eq_of_text few spelling different hentry hentry'
    constructor
    · have distinct : s.drawn.Nodup := .of_map Entry.call h.drawn.nodup
      exact distinct.map_on unique
    · have distinct : s.received.Nodup := .of_map Entry.call h.received.nodup
      exact distinct.map_on fun entry hentry entry' hentry' =>
        unique entry (h.received_subset hentry) entry' (h.received_subset hentry')
  case alone =>
    intro k c book idle hc begun hbook
    exact run_normalize_steps hc begun (h.unasked hc begun) hbook idle

namespace Sample

/-- An engine that keeps a list of what it is asked. -/
def recorder : Engine (StateM (List Request)) where
  name := "recording"
  reply request := do
    modify (· ++ [request])
    return .ofAnswer (.ok [request.expression])

theorem logs_recorder : recorder.Logs id :=
  fun _ _ => rfl

/-- A normalizer, a copy of it that waits for a second only, and a normalizer of another family. -/
def founder : Member (List Request) := ⟨0, recorder, .ofSeconds 10⟩
def copy : Member (List Request) := ⟨0, recorder, .ofSeconds 1⟩
def stranger : Member (List Request) := ⟨1, recorder, .ofSeconds 10⟩

def first : Request := ⟨⟨7, 0⟩, "!B", .ofSeconds 1⟩
def second : Request := ⟨⟨7, 1⟩, "A", .ofSeconds 10⟩
def third : Request := ⟨⟨7, 2⟩, "C", .ofSeconds 10⟩
def other : Request := ⟨⟨8, 0⟩, "A", .ofSeconds 10⟩

/-- The third call was begun last and has drawn first; it was over before its engine got the
request.  The second one was refused, the first one is still waiting for a reply that has come, and
there was no worker for the last one. -/
def mixed : Traffic (List Request) where
  world := [second, other, first]
  books := [⟨7, 3⟩, ⟨8, 1⟩]
  members := [founder, stranger, copy]
  calls := [⟨founder, "A", .waiting second, some (.ofAnswer (.ok ["A"]))⟩,
    ⟨copy, "A &", .refused ⟨4, .unexpectedEnd⟩, none⟩,
    ⟨copy, "!B", .settled first (.error (.timeout "no answer within 1s")),
      some (.ofAnswer (.ok ["!B"]))⟩,
    ⟨stranger, "A", .waiting other, some (.ofAnswer (.ok ["A"]))⟩,
    ⟨founder, "C", .stranded third "no more threads", none⟩]
  drawn := [⟨2, 0, first⟩, ⟨0, 0, second⟩, ⟨3, 1, other⟩, ⟨4, 0, third⟩]
  received := [⟨0, 0, second⟩, ⟨3, 1, other⟩, ⟨2, 0, first⟩]

theorem reachable_mixed : Reachable [] mixed := by
  have h : Reachable ([] : List Request) _ := .refl
  have h := h.tail (.found recorder (.ofSeconds 10) 7)
  have h := h.tail (.found recorder (.ofSeconds 10) 8)
  have h := h.tail (.copy (.ofSeconds 1) (show founder ∈ _ by simp [founder]))
  have h := h.tail (.call "A" (show founder ∈ _ by simp [founder]))
  have h := h.tail (.call "A &" (show copy ∈ _ by simp [founder, copy]))
  have h := h.tail (.call "!B" (show copy ∈ _ by simp [founder, copy]))
  have h := h.tail (.call "A" (show stranger ∈ _ by simp [stranger]))
  have h := h.tail (.call "C" (show founder ∈ _ by simp [founder]))
  have h := h.tail (.draw (k := 2) rfl rfl rfl
    (show Normalizer.request _ _ = .ok first by decide +kernel))
  have h := h.tail (.refuse (k := 1) rfl rfl rfl
    (show Normalizer.request _ _ = .error ⟨4, .unexpectedEnd⟩ by decide +kernel))
  have h := h.tail (.draw (k := 0) rfl rfl rfl
    (show Normalizer.request _ _ = .ok second by decide +kernel))
  have h := h.tail (.draw (k := 3) rfl rfl rfl
    (show Normalizer.request _ _ = .ok other by decide +kernel))
  have h := h.tail (.deliver (k := 0) rfl rfl rfl rfl)
  have h := h.tail (.expire (k := 2) rfl rfl rfl)
  have h := h.tail (.deliver (k := 3) rfl rfl rfl rfl)
  have h := h.tail (.draw (k := 4) rfl rfl rfl
    (show Normalizer.request _ _ = .ok third by decide +kernel))
  have h := h.tail (.strand (k := 4) "no more threads" rfl rfl rfl)
  have h := h.tail (.deliver (k := 2) rfl rfl rfl rfl)
  exact h

end Sample

/-- Five calls of two families: one is refused, one runs out of time, and one gets no worker. -/
theorem orderly_mixed :
    FamilySpelling familyText ∧ Reachable [] Sample.mixed ∧
      (∀ f, (Sample.mixed.callsIn f).length < 2 ^ 64) ∧
      (Sample.mixed.books.map TicketBook.family).Nodup ∧ Sample.mixed.Orderly familyText [] ∧
      Sample.mixed.world = Sample.mixed.received.map Entry.request := by
  have few : ∀ f, (Sample.mixed.callsIn f).length < 2 ^ 64 := fun f =>
    Nat.lt_of_le_of_lt (List.length_filter_le _ _) (by decide)
  have different : (Sample.mixed.books.map TicketBook.family).Nodup := by decide
  have orderly :=
    orderly_of_reachable familySpelling_familyText Sample.reachable_mixed few different
  refine ⟨familySpelling_familyText, Sample.reachable_mixed, few, different, orderly, ?_⟩
  refine orderly.heard id ?_
  simp [Sample.mixed, Sample.founder, Sample.copy, Sample.stranger, Sample.logs_recorder]

end Traffic

end ProductLine
