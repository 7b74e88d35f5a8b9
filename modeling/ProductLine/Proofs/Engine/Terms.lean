/- # Terms on the wire — an engine's answer is read as it was meant

An engine may write each term in parentheses, put `&` between them, spread
white space over the rest and use `~` for `!` (`Written`).  Whatever it
does of this, the terms come back, each with the characters that it had
(`read_written`).  A term may have `&` and unrelated parentheses of its own:
what protects it is that its parentheses are balanced, so that inside the
pair that wraps it the depth is never zero, and that pair is the one which
is taken off.

In the other direction, nothing is read that could not have been sent: what
comes out of any answer are terms (`IsTerm`).
-/
import ProductLine.Engine.Command
import ProductLine.Proofs.ClauseText
import ProductLine.Proofs.Draft
import ProductLine.Proofs.Engine.Depth
import ProductLine.Proofs.Expr.Reading
import ProductLine.Proofs.Text.Lines

namespace ProductLine

open Text (Blank Edged)

namespace Terms

variable {t : String} {ts : List String} {cs ds inner output : List Char}

/-- What may be sent as a term: an expression without white space at its ends and without `~`. -/
structure IsTerm (t : String) : Prop where
  edged : Edged t.toList
  plain : '~' ∉ t.toList
  isExpression : ∃ e, Expr.parse t = .ok e

/-- The terms in parentheses, with ` & ` between them. -/
def write (ts : List String) : String :=
  " & ".intercalate (ts.map fun t => "(" ++ t ++ ")")

/-- The text with some of its `!` written as `~`. -/
def Respelled (cs ds : List Char) : Prop :=
  List.Forall₂ (fun c d => c = d ∨ c = '!' ∧ d = '~') cs ds

/-- A term in parentheses, with white space on either side of each of them. -/
inductive Wrapped (t : String) : List Char → Prop where
  | intro {before left spelled right after : List Char} :
      Blank before → Blank left → Respelled t.toList spelled → Blank right → Blank after →
      Wrapped t (before ++ ('(' :: (left ++ (spelled ++ right) ++ [')']) ++ after))

/-- The ways to write a list of terms.  What follows the last `&` may be blank. -/
inductive Written : List String → List Char → Prop where
  | none {output : List Char} : Blank output → Written [] output
  | last {t : String} {output : List Char} : Wrapped t output → Written [t] output
  | more {t : String} {ts : List String} {piece output : List Char} :
      Wrapped t piece → Written ts output → Written (t :: ts) (piece ++ '&' :: output)

/-! ## The plain way -/

theorem respelled_refl (cs : List Char) : Respelled cs cs :=
  List.forall₂_same.mpr fun _ _ => .inl rfl

theorem wrapped_plain {before after : List Char} (hbefore : Blank before) (hafter : Blank after)
    (t : String) : Wrapped t (before ++ (("(" ++ t ++ ")").toList ++ after)) := by
  simpa using Wrapped.intro hbefore Text.blank_nil (respelled_refl t.toList) Text.blank_nil hafter

/-- The plain way is one of the ways.  The space after an `&` belongs to the next term. -/
theorem written_blank_append_write {before : List Char} (hbefore : Blank before)
    (ts : List String) : Written ts (before ++ (write ts).toList) := by
  unfold write
  rw [String.toList_intercalate, List.map_map]
  induction ts generalizing before with
  | nil => exact .none (hbefore.append Text.blank_nil)
  | cons t ts ih =>
    cases ts with
    | nil => simpa using Written.last (wrapped_plain hbefore Text.blank_nil t)
    | cons next ts =>
      simpa using Written.more (wrapped_plain hbefore Text.blank_space t) (ih Text.blank_space)

theorem written_write (ts : List String) : Written ts (write ts).toList :=
  written_blank_append_write Text.blank_nil ts

/-! ## One spelling of `!` -/

/-- The text with each `~` written as `!`. -/
def respell (cs : List Char) : List Char :=
  cs.map fun c => if c = '~' then '!' else c

theorem respell_append (cs ds : List Char) : respell (cs ++ ds) = respell cs ++ respell ds :=
  List.map_append

/-- What is written with some `~` is read as it was, unless it had some of its own. -/
theorem respell_of_respelled (h : Respelled cs ds) (plain : '~' ∉ cs) : respell ds = cs := by
  induction h with
  | nil => rfl
  | @cons c d cs ds hd _ ih =>
    rw [List.mem_cons, not_or] at plain
    refine congrArg₂ List.cons ?_ (ih plain.2)
    rcases hd with rfl | ⟨rfl, rfl⟩
    · exact if_neg (Ne.symm plain.1)
    · exact if_pos rfl

theorem respell_of_notMem (h : '~' ∉ cs) : respell cs = cs :=
  respell_of_respelled (respelled_refl cs) h

theorem notMem_respell (cs : List Char) : '~' ∉ respell cs := by
  intro h
  obtain ⟨c, -, hc⟩ := List.mem_map.mp h
  split at hc
  case isTrue => cases hc
  case isFalse other => exact other hc

theorem notMem_of_blank {c : Char} (hc : Text.isBlank c = false) (h : Blank cs) : c ∉ cs :=
  fun hmem => Bool.false_ne_true (hc.symm.trans (h c hmem))

theorem respell_of_blank (h : Blank cs) : respell cs = cs :=
  respell_of_notMem (notMem_of_blank (by decide) h)

/-! ## A wrapped term -/

theorem balanced_of_blank (h : Blank cs) : Balanced cs :=
  balanced_of_no_parens fun c hc => isParen_of_isBlank (h c hc)

theorem IsTerm.balanced (h : IsTerm t) : Balanced t.toList := by
  obtain ⟨e, he⟩ := h.isExpression
  obtain ⟨ts, n, lexes, derives, -⟩ := Expr.ofChars_eq_ok_iff.mp he
  exact Expr.balanced_of_derives lexes derives

theorem IsTerm.ne_nil (h : IsTerm t) : t.toList ≠ [] := by
  obtain ⟨e, he⟩ := h.isExpression
  rintro empty
  rw [Expr.parse, empty, Expr.ofChars, scan] at he
  cases he

/-- The pair of parentheses around a text is the one that is taken off. -/
theorem unwrap_enclosed (h : staysOpen 0 inner = true) :
    unwrap ('(' :: (inner ++ [')'])) = Text.trim inner := by
  have found : between? ('(' :: (inner ++ [')'])) = some inner := by
    rw [between?, List.getLast?_concat, if_pos rfl, List.dropLast_concat]
  rw [unwrap, found]
  exact if_pos h

/-- Nothing is cut inside a pair of parentheses. -/
theorem Balanced.uncut_enclosed (h : Balanced inner) : Uncut 0 ('(' :: (inner ++ [')'])) := by
  have inside : Uncut 1 inner := uncut_of_staysOpen (Int.le_refl 0) h.stays
  refine ⟨by decide, inside.append ?_⟩
  rw [h.depthAt]
  exact ⟨by decide, trivial⟩

theorem uncut_of_blank (h : Blank cs) (depth : Int) : Uncut depth cs := by
  induction cs with
  | nil => trivial
  | cons c cs ih =>
    obtain ⟨hc, hcs⟩ := List.forall_mem_cons.mp h
    rw [Uncut, depthAfter_of_not_isParen (isParen_of_isBlank hc)]
    refine ⟨?_, ih hcs⟩
    rintro ⟨rfl, -⟩
    exact absurd hc (by decide)

/-- A wrapped term, with `!` spelled in one way: it is one piece, and the term is inside. -/
theorem Wrapped.piece (h : Wrapped t cs) (term : IsTerm t) :
    Uncut 0 (respell cs) ∧ depthAt 0 (respell cs) = 0 ∧
      unwrap (Text.trim (respell cs)) = t.toList := by
  obtain ⟨hbefore, hleft, hspelled, hright, hafter⟩ := h
  rename_i before left spelled right after
  have spelling : respell (before ++ ('(' :: (left ++ (spelled ++ right) ++ [')']) ++ after)) =
      before ++ ('(' :: (left ++ (t.toList ++ right) ++ [')']) ++ after) := by
    have paren : respell ('(' :: (left ++ (spelled ++ right) ++ [')'])) =
        '(' :: respell (left ++ (spelled ++ right) ++ [')']) := rfl
    have closing : respell [')'] = [')'] := rfl
    rw [respell_append, respell_append, paren]
    simp only [respell_append, respell_of_blank hbefore, respell_of_blank hleft,
      respell_of_respelled hspelled term.plain, respell_of_blank hright, respell_of_blank hafter,
      closing]
  rw [spelling]
  have inside : Balanced (left ++ (t.toList ++ right)) :=
    (balanced_of_blank hleft).append (term.balanced.append (balanced_of_blank hright))
  generalize hinner : left ++ (t.toList ++ right) = inner at inside ⊢
  refine ⟨?uncut, ?closes, ?term⟩
  case uncut =>
    refine (uncut_of_blank hbefore 0).append ?_
    rw [(balanced_of_blank hbefore).depthAt]
    refine inside.uncut_enclosed.append ?_
    rw [inside.enclosed.depthAt]
    exact uncut_of_blank hafter 0
  case closes =>
    exact ((balanced_of_blank hbefore).append
      (inside.enclosed.append (balanced_of_blank hafter))).closes
  case term =>
    have edged : Edged ('(' :: (inner ++ [')'])) := by
      refine ⟨?_, ?_⟩
      · rintro c ⟨⟩
        decide
      · intro c hc
        rw [← List.cons_append, List.getLast?_concat] at hc
        cases hc
        decide
    rw [Text.trim_surround hbefore hafter edged, unwrap_enclosed inside.stays, ← hinner,
      Text.trim_surround hleft hright term.edged]

/-! ## What is cut and what is kept -/

theorem splitConjuncts_of_uncut {depth : Int} (h : Uncut depth cs) :
    splitConjuncts depth cs = [cs] := by
  have all := splitConjuncts_append h []
  rwa [List.append_nil, splitConjuncts, List.modifyHead_cons, List.append_nil] at all

/-- Blanks at the end of a text are at the end of its last piece. -/
theorem exists_splitConjuncts_append_blank (hds : Blank ds) (depth : Int) (cs : List Char) :
    ∃ init last, splitConjuncts depth cs = init ++ [last] ∧
      splitConjuncts depth (cs ++ ds) = init ++ [last ++ ds] := by
  induction cs generalizing depth with
  | nil => exact ⟨[], [], rfl, splitConjuncts_of_uncut (uncut_of_blank hds depth)⟩
  | cons c cs ih =>
    rw [List.cons_append, splitConjuncts, splitConjuncts]
    split
    case isTrue =>
      obtain ⟨init, last, hcs, hboth⟩ := ih depth
      exact ⟨[] :: init, last, by rw [hcs]; rfl, by rw [hboth]; rfl⟩
    case isFalse =>
      obtain ⟨init, last, hcs, hboth⟩ := ih (depthAfter depth c)
      rw [hcs, hboth]
      cases init with
      | nil => exact ⟨[], c :: last, rfl, rfl⟩
      | cons piece init => exact ⟨(c :: piece) :: init, last, rfl, rfl⟩

/-- Trimming the whole makes no difference to the trimmed pieces. -/
theorem map_trim_splitConjuncts (cs : List Char) :
    (splitConjuncts 0 (Text.trim cs)).map Text.trim = (splitConjuncts 0 cs).map Text.trim := by
  obtain ⟨before, after, hbefore, hafter, hcs⟩ := Text.exists_surround_trim cs
  obtain ⟨init, last, htrimmed, hended⟩ :=
    exists_splitConjuncts_append_blank hafter 0 (Text.trim cs)
  have whole : splitConjuncts 0 cs =
      (splitConjuncts 0 (Text.trim cs ++ after)).modifyHead (before ++ ·) := by
    conv_lhs => rw [hcs]
    rw [splitConjuncts_append (uncut_of_blank hbefore 0), (balanced_of_blank hbefore).depthAt]
  have leading (piece : List Char) : Text.trim (before ++ piece) = Text.trim piece := by
    have surrounded := Text.trim_blank_append hbefore Text.blank_nil piece
    rwa [List.append_nil] at surrounded
  have trailing : Text.trim (last ++ after) = Text.trim last :=
    Text.trim_blank_append Text.blank_nil hafter last
  rw [whole, hended, htrimmed]
  cases init with
  | nil => simp [leading, trailing]
  | cons piece init => simp [leading, trailing]

theorem trim_respell (cs : List Char) : Text.trim (respell cs) = respell (Text.trim cs) := by
  have same : Text.isBlank ∘ (fun c => if c = '~' then '!' else c) = Text.isBlank := by
    funext c
    rw [Function.comp_apply]
    split
    case isTrue h => rw [h]; decide
    case isFalse => rfl
  simp only [Text.trim, Text.trimEnd, respell, List.dropWhile_map, ← List.map_reverse, same]

/-- Neither the trimming of the answer nor the time of the respelling matters. -/
theorem pieces_eq (output : List Char) : pieces output =
    (((splitConjuncts 0 (respell output)).map Text.trim).map unwrap).filter (!·.isEmpty) := by
  rw [← map_trim_splitConjuncts, trim_respell, List.map_map]
  rfl

/-- A way to write terms has these terms as its pieces. -/
theorem pieces_written (h : Written ts output) (terms : ∀ t ∈ ts, IsTerm t) :
    pieces output = ts.map String.toList := by
  rw [pieces_eq]
  induction h with
  | none blank =>
    rw [respell_of_blank blank, splitConjuncts_of_uncut (uncut_of_blank blank 0)]
    have nothing := Text.trim_surround blank Text.blank_nil Text.edged_nil
    rw [List.append_nil, List.append_nil] at nothing
    rw [List.map_cons, nothing]
    rfl
  | @last t output wrapped =>
    have term := terms t List.mem_cons_self
    obtain ⟨uncut, -, inside⟩ := wrapped.piece term
    rw [splitConjuncts_of_uncut uncut]
    simp [inside, term.ne_nil]
  | @more t ts piece output wrapped _ ih =>
    obtain ⟨term, others⟩ := List.forall_mem_cons.mp terms
    obtain ⟨uncut, closes, inside⟩ := wrapped.piece term
    have next : splitConjuncts 0 (respell (piece ++ '&' :: output)) =
        respell piece :: splitConjuncts 0 (respell output) := by
      have mark : respell ('&' :: output) = '&' :: respell output := rfl
      rw [respell_append, mark, splitConjuncts_append uncut, closes, splitConjuncts,
        if_pos ⟨rfl, rfl⟩, List.modifyHead_cons, List.append_nil]
    rw [next, List.map_cons, List.map_cons, inside,
      List.filter_cons_of_pos (by simp [term.ne_nil]), ih others, List.map_cons]

/-! ## What is read -/

theorem check_eq_ok_iff : check cs = .ok t ↔ t.toList = cs ∧ ∃ e, Expr.parse t = .ok e := by
  unfold check Expr.parse
  cases he : Expr.ofChars cs with
  | error fault =>
    refine iff_of_false nofun ?_
    rintro ⟨rfl, e, h⟩
    rw [he] at h
    cases h
  | ok e =>
    constructor
    · rintro ⟨⟩
      exact ⟨String.toList_ofList, e, by rw [String.toList_ofList, he]⟩
    · rintro ⟨rfl, -⟩
      rw [String.ofList_toList]

/-- The characters of a piece are those of the text. -/
theorem subset_of_mem_splitConjuncts {depth : Int} (h : ds ∈ splitConjuncts depth cs) :
    ds ⊆ cs := by
  induction cs generalizing depth ds with
  | nil =>
    rw [splitConjuncts, List.mem_singleton] at h
    exact h ▸ List.Subset.refl _
  | cons c cs ih =>
    rw [splitConjuncts] at h
    split at h
    · rcases List.mem_cons.mp h with rfl | h
      · exact List.nil_subset _
      · exact List.Subset.trans (ih h) (List.subset_cons_self c cs)
    · obtain ⟨piece, pieces, hrest⟩ :=
        List.exists_cons_of_ne_nil (splitConjuncts_ne_nil (depthAfter depth c) cs)
      have sub : ∀ p ∈ piece :: pieces, p ⊆ cs := fun p hp => ih (hrest ▸ hp)
      rw [hrest] at h
      rcases List.mem_cons.mp h with rfl | h
      · exact List.cons_subset_cons c (sub piece List.mem_cons_self)
      · exact List.Subset.trans (sub ds (List.mem_cons_of_mem _ h)) (List.subset_cons_self c cs)

theorem between?_eq_some (h : between? cs = some inner) : cs = '(' :: (inner ++ [')']) := by
  unfold between? at h
  split at h
  case h_1 rest =>
    split at h
    case isTrue last =>
      cases h
      rw [List.dropLast_append_getLast? _ last]
    case isFalse => cases h
  case h_2 => cases h

/-- Taking off the parentheses adds nothing and leaves no blanks at the ends. -/
theorem unwrap_subset_and_edged (edged : Edged cs) : unwrap cs ⊆ cs ∧ Edged (unwrap cs) := by
  unfold unwrap
  split
  case h_1 => exact ⟨List.Subset.refl _, edged⟩
  case h_2 inner found =>
    split
    case isTrue =>
      refine ⟨List.Subset.trans (Text.trim_subset inner) fun c hc => ?_, Text.edged_trim inner⟩
      rw [between?_eq_some found]
      exact List.mem_cons_of_mem _ (List.mem_append_left _ hc)
    case isFalse => exact ⟨List.Subset.refl _, edged⟩

theorem edged_and_plain_of_mem_pieces (h : cs ∈ pieces output) : Edged cs ∧ '~' ∉ cs := by
  rw [pieces_eq, List.mem_filter, List.map_map, List.mem_map] at h
  obtain ⟨⟨piece, hpiece, rfl⟩, -⟩ := h
  obtain ⟨subset, edged⟩ := unwrap_subset_and_edged (Text.edged_trim piece)
  refine ⟨edged, fun h => notMem_respell output ?_⟩
  exact subset_of_mem_splitConjuncts hpiece (Text.trim_subset piece (subset h))

theorem isTerm_of_read {output : String} (h : read output = .ok ts) : ∀ t ∈ ts, IsTerm t := by
  intro t ht
  have checked := mapM_eq_ok_iff.mp h
  obtain ⟨piece, hpiece, hcheck⟩ : ∃ piece ∈ pieces output.toList, check piece = .ok t := by
    rw [← List.mem_map, checked]
    exact List.mem_map_of_mem ht
  obtain ⟨rfl, isExpression⟩ := check_eq_ok_iff.mp hcheck
  obtain ⟨edged, plain⟩ := edged_and_plain_of_mem_pieces hpiece
  exact ⟨edged, plain, isExpression⟩

/-- In whichever way terms are written, they are read as they were. -/
theorem read_written {output : String} (terms : ∀ t ∈ ts, IsTerm t)
    (h : Written ts output.toList) : read output = .ok ts := by
  rw [read, pieces_written h terms, mapM_eq_ok_iff, List.map_map]
  exact List.map_congr_left fun t ht => check_eq_ok_iff.mpr ⟨rfl, (terms t ht).isExpression⟩

/-! ## The terms of the built-in engine -/

/-- The text of a clause is a term if it can be read at all. -/
theorem isTerm_text {c : Clause} (h : ∃ e, Expr.parse c.text = .ok e) : IsTerm c.text where
  edged := c.edged_text
  plain hmem := by
    rcases Clause.mem_text hmem with symbol | letter
    · exact absurd symbol (by decide)
    · exact absurd letter (by decide)
  isExpression := h

end Terms

open Terms

namespace Engine

variable {m : Type → Type} [Monad m] [LawfulMonad m]

/-- A program that prints the terms in whichever way and ends well has answered with them. -/
theorem command_reply_of_written {host : Host m} {program : String} {arguments : List String}
    {request : Request} {output : List Char} {errors : List UInt8} {elapsed : Duration}
    {ts : List String} (prints : host.run (invocation program arguments false request) =
      pure (.ok ⟨Text.encode output, errors, .exited 0, elapsed⟩))
    (terms : ∀ t ∈ ts, IsTerm t) (h : Written ts output) :
    (command host program arguments false).reply request =
      pure ⟨.answered (.ok ts), elapsed⟩ := by
  have answer : answerOf program ⟨Text.encode output, errors, .exited 0, elapsed⟩ = .ok ts := by
    refine read_written terms ?_
    rwa [printed, Text.decode?_encode, Option.getD_some, String.toList_ofList]
  unfold command commandReply
  simp [prints, answer]

end Engine

/-- Only terms are read, and however a list of terms is written, the same list is read.  The clauses
of the built-in engine, as far as they are expressions, are therefore the same when they come from
a program that prints them. -/
theorem Terms.read_lossless {m : Type → Type} [Monad m] [LawfulMonad m] :
    (∀ (output : String) (ts : List String), read output = .ok ts → ∀ t ∈ ts, IsTerm t) ∧
    (∀ ts : List String, (∀ t ∈ ts, IsTerm t) → read (write ts) = .ok ts ∧
      ∀ output : String, Written ts output.toList → read output = .ok ts) ∧
    (∀ (limits : Cnf.Limits) (expression : String) (clauses : List String),
      Engine.convertText limits expression = .ok clauses →
      (∀ t ∈ clauses, ∃ e, Expr.parse t = .ok e) →
      ∀ (host : Host m) (program : String) (arguments : List String) (request : Request)
        (output : List Char) (errors : List UInt8) (elapsed : Duration), Written clauses output →
      host.run (Engine.invocation program arguments false request) =
        pure (.ok ⟨Text.encode output, errors, .exited 0, elapsed⟩) →
      (Engine.command host program arguments false).reply request =
        pure ⟨.answered (.ok clauses), elapsed⟩) := by
  refine ⟨fun output ts => isTerm_of_read, fun ts terms => ⟨?plain, fun output => ?any⟩, ?engine⟩
  case plain => exact read_written terms (written_write ts)
  case any => exact read_written terms
  case engine =>
    intro limits expression clauses hconvert readable host program arguments request output errors
      elapsed written prints
    obtain ⟨e, cs, -, -, rfl⟩ := Engine.convertText_eq_ok hconvert
    refine Engine.command_reply_of_written prints (fun t ht => ?_) written
    obtain ⟨c, -, rfl⟩ := List.mem_map.mp ht
    exact isTerm_text (readable _ ht)

namespace Sample

/-- Terms with an `&` of their own, with unrelated parentheses at their ends, and in parentheses. -/
def wireTerms : List String := ["(A) | (B)", "A & !B", "((A))"]

def wireOutput : String := "\t( (A) | (B) ) &(A & ~B )& (((A)))"

/-- The clauses of `!(A & B) & (A | C)`. -/
def wireClauses : List String := ["!A | !B", "A | C"]

def wireRequest : Request := ⟨⟨0, 0⟩, "!(A & B) & (A | C)", .ofSeconds 10⟩

/-- A host on which every program prints the clauses. -/
def wireHost : Host Id :=
  ⟨fun _ => pure (.ok ⟨Text.encode (write wireClauses).toList, [], .exited 0, .zero⟩)⟩

end Sample

open Sample Cnf.Sample in
theorem Terms.read_lossless_sample :
    (∀ t ∈ wireTerms, IsTerm t) ∧ read wireOutput = .ok wireTerms ∧
      (Engine.command wireHost "fmc" [] false).reply wireRequest =
        pure ⟨.answered (.ok wireClauses), .zero⟩ := by
  obtain ⟨terms, written, engine⟩ := Terms.read_lossless (m := Id)
  have plain : read (write wireTerms) = .ok wireTerms := by decide +kernel
  have wireTerms_isTerm := terms _ _ plain
  refine ⟨wireTerms_isTerm, (written _ wireTerms_isTerm).2 _ ?_, ?_⟩
  · have space := Text.blank_space
    have tab : Blank ['\t'] := List.forall_mem_singleton.mpr rfl
    have first : Wrapped "(A) | (B)" "\t( (A) | (B) ) ".toList := by
      simpa using Wrapped.intro tab space
        (respelled_refl "(A) | (B)".toList) space space
    have second : Wrapped "A & !B" "(A & ~B )".toList := by
      have respelled : Respelled "A & !B".toList "A & ~B".toList := by
        simp [Respelled]
      simpa using Wrapped.intro Text.blank_nil Text.blank_nil respelled space Text.blank_nil
    have third : Wrapped "((A))" " (((A)))".toList := by
      simpa using Wrapped.intro space Text.blank_nil (respelled_refl "((A))".toList) Text.blank_nil
        Text.blank_nil
    exact .more first (.more second (.last third))
  · have read_wireClauses : read (write wireClauses) = .ok wireClauses := by decide +kernel
    refine engine {} wireRequest.expression wireClauses (by decide +kernel) (fun t ht => ?_)
      wireHost "fmc" [] wireRequest _ [] .zero (written_write wireClauses) rfl
    exact (terms _ _ read_wireClauses t ht).isExpression

end ProductLine
