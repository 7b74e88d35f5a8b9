/- # Blame — where a text stops being an expression

The reader refuses a text for its depth or for its grammar.  In the second case
it has stopped at the first token that no expression has in this place
(`column_of_fault`): what stands before it is the beginning of an expression,
and with it the sequence is none.  Two faults have no such token.  A text may
end too early, and is then blamed in the column after its last character; if all
that is missing is a `)`, the blame is on the last `(` that has none.

`Phrase.Blames` says this of a phrase somewhere inside of an expression, with so
many parentheses open around it.  The reader is unfolded for its faults here, as
it is for its results in `ProductLine.Proofs.Expr.Reading`; a fault of a part is
one of the whole, since what has been read in front of the part is complete
(`Phrase.Blames.within`).
-/
import Mathlib.Data.List.Basic
import ProductLine.Proofs.Expr.Columns
import ProductLine.Proofs.Expr.Depth
import ProductLine.Proofs.Expr.Viable

namespace ProductLine.Expr

variable {op : Junction} {item : Reader} {a left : Measured} {t : Placed}
  {ts mid rest : List Placed} {endColumn levels depth depth' column : Nat} {fault : SyntaxFault}

/-! ## The reader, unfolded for its faults -/

theorem Measured.tooDeep_of_bounded (h : a.bounded column = .error fault) :
    fault.cause = .tooDeep := by
  rcases a.bounded_or_tooDeep column with ⟨low, -⟩ | high
  · rw [low] at h
    cases h
  · rw [high] at h
    cases h
    rfl

theorem chainFrom_eq_error (h : chainFrom op item left ts = .error fault)
    (shallow : fault.cause ≠ .tooDeep) : ∃ t rest, ts = t :: rest ∧ t.token = op.token ∧
      (item rest = .error fault ∨ ∃ right mid, Gives (item rest) right mid ∧
        chainFrom op item (op.join left right) mid = .error fault) := by
  cases ts with
  | nil =>
    rw [chainFrom] at h
    cases h
  | cons t rest =>
    by_cases ht : t.token = op.token
    case neg =>
      rw [chainFrom, if_neg ht] at h
      cases h
    case pos =>
      refine ⟨t, rest, rfl, ht, ?_⟩
      rw [chainFrom, if_pos ht] at h
      split at h
      case h_1 hitem =>
        cases h
        exact .inl hitem
      case h_2 right mid shorter hitem =>
        split at h
        case h_1 high =>
          cases h
          exact absurd (Measured.tooDeep_of_bounded high) shallow
        case h_2 joined hjoined =>
          obtain ⟨rfl, -⟩ := Measured.bounded_eq_ok_iff.mp hjoined
          split at h
          case h_1 hrest =>
            cases h
            exact .inr ⟨right, mid, ⟨shorter, hitem⟩, hrest⟩
          case h_2 => cases h

theorem chain_eq_error (h : chain op item ts = .error fault) : item ts = .error fault ∨
    ∃ left mid, Gives (item ts) left mid ∧ chainFrom op item left mid = .error fault := by
  rw [chain] at h
  split at h
  case h_1 hitem =>
    cases h
    exact .inl hitem
  case h_2 left mid shorter hitem =>
    split at h
    case h_1 hrest =>
      cases h
      exact .inr ⟨left, mid, ⟨shorter, hitem⟩, hrest⟩
    case h_2 => cases h

theorem negation_eq_error (h : negation column item ts = .error fault)
    (shallow : fault.cause ≠ .tooDeep) : item ts = .error fault := by
  rw [negation] at h
  split at h
  case h_1 hitem =>
    cases h
    exact hitem
  case h_2 =>
    split at h
    case h_1 high =>
      cases h
      exact absurd (Measured.tooDeep_of_bounded high) shallow
    case h_2 => cases h

theorem enclosed_eq_error (h : enclosed column item ts = .error fault) :
    disjunction item ts = .error fault ∨
      (∃ a, Gives (disjunction item ts) a [] ∧ fault = ⟨column, .unclosed⟩) ∨
      ∃ a t rest, Gives (disjunction item ts) a (t :: rest) ∧ t.token ≠ .closing ∧
        fault = ⟨t.column, .closingExpected t.token⟩ := by
  rw [enclosed] at h
  split at h
  case h_1 hinner =>
    cases h
    exact .inl hinner
  case h_2 inner shorter hinner =>
    cases h
    exact .inr (.inl ⟨inner, ⟨shorter, hinner⟩, rfl⟩)
  case h_3 inner t rest shorter hinner =>
    split at h
    case h_1 => cases h
    case h_2 other =>
      cases h
      exact .inr (.inr ⟨inner, t, rest, ⟨shorter, hinner⟩, other, rfl⟩)

theorem factor_eq_error (h : factor endColumn levels ts = .error fault)
    (shallow : fault.cause ≠ .tooDeep) : (ts = [] ∧ fault = ⟨endColumn, .unexpectedEnd⟩) ∨
      ∃ t rest, ts = t :: rest ∧
        ((t.token = .not ∧ ∃ l, negation t.column (factor endColumn l) rest = .error fault ∧
          levels = l + 1) ∨
        (t.token = .opening ∧ ∃ l, enclosed t.column (factor endColumn l) rest = .error fault ∧
          levels = l + 1) ∨
        ((∀ n, Stance.step ⟨n, true⟩ t.token = none) ∧
          fault = ⟨t.column, .operandExpected t.token⟩)) := by
  cases ts with
  | nil =>
    rw [factor] at h
    cases h
    exact .inl ⟨rfl, rfl⟩
  | cons t rest =>
    obtain ⟨column, token⟩ := t
    refine .inr ⟨_, rest, rfl, ?_⟩
    cases token with
    | feature f =>
      rw [factor] at h
      cases h
    | not =>
      refine .inl ⟨rfl, ?_⟩
      cases levels with
      | zero =>
        rw [factor] at h
        cases h
        exact absurd rfl shallow
      | succ l =>
        rw [factor] at h
        dsimp only at h
        split at h
        case h_1 hread =>
          cases h
          exact ⟨l, hread, rfl⟩
        case h_2 => cases h
    | opening =>
      refine .inr (.inl ⟨rfl, ?_⟩)
      cases levels with
      | zero =>
        rw [factor] at h
        cases h
        exact absurd rfl shallow
      | succ l =>
        rw [factor] at h
        dsimp only at h
        split at h
        case h_1 hread =>
          cases h
          exact ⟨l, hread, rfl⟩
        case h_2 => cases h
    | and | or | closing =>
      refine .inr (.inr ⟨fun _ => rfl, ?_⟩)
      simp only [factor, Except.error.injEq] at h
      exact h.symm

/-! ## Blame inside of an expression -/

/-- The fault that a phrase of the class is refused for, where so many parentheses are open. -/
inductive Phrase.Blames (endColumn : Nat) (k : Phrase) (depth : Nat) (ts : List Placed) :
    SyntaxFault → Prop where
  | ended {n : Nat} : k.Begins (ts.map Placed.token) →
      Stance.run ⟨depth, k.wanted⟩ (ts.map Placed.token) = some ⟨n, true⟩ →
      Blames endColumn k depth ts ⟨endColumn, .unexpectedEnd⟩
  | misplaced (before after : List Placed) {t : Placed} {cause : SyntaxCause} :
      ts = before ++ t :: after → cause ≠ .unclosed → k.Begins (before.map Placed.token) →
      Stance.run ⟨depth, k.wanted⟩ ((before ++ [t]).map Placed.token) = none →
      Blames endColumn k depth ts ⟨t.column, cause⟩
  | unclosed (before after : List Placed) {t : Placed} :
      ts = before ++ t :: after → t.token = .opening → k.Begins (ts.map Placed.token) →
      Grammatical (after.map Placed.token) →
      Blames endColumn k depth ts ⟨t.column, .unclosed⟩

/-- A fault inside of a phrase is one of the phrase, if all that stands in front can be followed by
what begins there. -/
theorem Phrase.Blames.within {k k' : Phrase} (h : k'.Blames endColumn depth' ts fault)
    (front : List Placed)
    (begins : ∀ us, k'.Begins us → k.Begins (front.map Placed.token ++ us))
    (run : Stance.run ⟨depth, k.wanted⟩ (front.map Placed.token) = some ⟨depth', k'.wanted⟩) :
    k.Blames endColumn depth (front ++ ts) fault := by
  have onward (us : List Token) : Stance.run ⟨depth, k.wanted⟩ (front.map Placed.token ++ us) =
      Stance.run ⟨depth', k'.wanted⟩ us := by
    rw [Stance.run_append, run, Option.bind_some]
  cases h with
  | ended viable last =>
    rw [← onward, ← List.map_append] at last
    refine .ended ?_ last
    rw [List.map_append]
    exact begins _ viable
  | misplaced before after hts other viable stuck =>
    refine .misplaced (front ++ before) after ?_ other ?_ ?_
    · rw [hts, List.append_assoc]
    · rw [List.map_append]
      exact begins _ viable
    · rw [List.append_assoc, List.map_append, onward]
      exact stuck
  | unclosed before after hts ht viable inner =>
    refine .unclosed (front ++ before) after ?_ ht ?_ inner
    · rw [hts, List.append_assoc]
    · rw [List.map_append]
      exact begins _ viable

/-- Whatever a reader of the class refuses, but for its depth, it blames on the right place. -/
def Blaming (endColumn : Nat) (k : Phrase) (item : Reader) : Prop :=
  ∀ depth ts fault, item ts = .error fault → fault.cause ≠ .tooDeep →
    k.Blames endColumn depth ts fault

theorem blames_chainFrom (exact' : Exact op.operand levels item)
    (blaming : Blaming endColumn op.operand item) (depth : Nat) {left : Measured}
    {ts : List Placed} (h : chainFrom op item left ts = .error fault)
    (shallow : fault.cause ≠ .tooDeep) :
    (Phrase.tail op left.tree).Blames endColumn depth ts fault := by
  obtain ⟨t, rest, rfl, ht, hfault⟩ := chainFrom_eq_error h shallow
  have operator : Stance.run ⟨depth, false⟩ [t.token] = some ⟨depth, true⟩ := by
    rw [ht, Stance.run_cons, Stance.step_operator]
    rfl
  rcases hfault with hitem | ⟨right, mid, hitem, hrest⟩
  case inl =>
    have part := blaming depth rest fault hitem shallow
    refine part.within [t] (fun us h => ?_) ?_
    · rw [List.map_singleton, List.singleton_append, ht]
      exact h.tail_operand left.tree
    · rw [op.wanted_operand]
      exact operator
  case inr =>
    obtain ⟨n, used, rfl, next, -⟩ := (exact' _ _ _).mp hitem
    have shorter := hitem.length_lt
    have part := blames_chainFrom exact' blaming depth hrest shallow
    rw [op.tree_join] at part
    refine part.within (t :: used) (fun us h => ?_) ?_
    · rw [List.map_cons, List.cons_append, ht]
      exact h.tail_more next
    · have run := next.run_eq depth
      rw [op.wanted_operand] at run
      rw [List.map_cons, ← List.singleton_append, Stance.run_append]
      show (Stance.run ⟨depth, false⟩ [t.token]).bind _ = _
      rw [operator, Option.bind_some, run]
      rfl
termination_by ts.length

theorem blaming_chain (exact' : Exact op.operand levels item)
    (blaming : Blaming endColumn op.operand item) :
    Blaming endColumn (.chain op) (chain op item) := by
  intro depth ts fault h shallow
  rcases chain_eq_error h with hitem | ⟨left, mid, hitem, hrest⟩
  case inl =>
    have part := blaming depth ts fault hitem shallow
    refine part.within [] (fun us h => h.operand) ?_
    rw [op.wanted_operand]
    rfl
  case inr =>
    obtain ⟨n, used, rfl, first, -⟩ := (exact' _ _ _).mp hitem
    have part := blames_chainFrom exact' blaming depth hrest shallow
    refine part.within used (fun us h => h.tail first) ?_
    have run := first.run_eq depth
    rw [op.wanted_operand] at run
    exact run

theorem blaming_disjunction (exact' : Exact .factor levels item)
    (blaming : Blaming endColumn .factor item) : Blaming endColumn .expr (disjunction item) :=
  blaming_chain (exact_chain exact') (blaming_chain exact' blaming)

/-- What follows an expression is no `&` and no `|`, so it closes a parenthesis or is misplaced. -/
theorem step_eq_none_of_ends {n : Nat} {t : Token} {us : List Token}
    (ends : Phrase.expr.Ends (t :: us)) (closes : t = .closing → n = 0) :
    Stance.step ⟨n, false⟩ t = none := by
  have other : t ∉ Phrase.expr.operators := ends t rfl
  cases t with
  | and => exact absurd (by decide) other
  | or => exact absurd (by decide) other
  | closing =>
    rw [closes rfl]
    rfl
  | feature | not | opening => rfl

theorem blames_enclosed (exact' : Exact .factor levels item)
    (blaming : Blaming endColumn .factor item) (depth : Nat) (ht : t.token = .opening)
    (h : enclosed t.column item ts = .error fault) (shallow : fault.cause ≠ .tooDeep) :
    Phrase.factor.Blames endColumn depth (t :: ts) fault := by
  rcases enclosed_eq_error h with hinner | ⟨a, hinner, rfl⟩ | ⟨a, u, rest, hinner, other, rfl⟩
  case inl =>
    have part := blaming_disjunction exact' blaming (depth + 1) ts fault hinner shallow
    refine part.within [t] (fun us h => ?_) ?_
    · rw [List.map_singleton, List.singleton_append, ht]
      exact .enclosed h
    · rw [List.map_singleton, ht]
      rfl
  case inr.inl =>
    obtain ⟨n, used, rfl, inner, -⟩ := (exact_disjunction exact' _ _ _).mp hinner
    rw [List.append_nil]
    refine .unclosed [] used rfl ht ?_ ⟨n, _, inner⟩
    rw [List.map_cons, ht]
    exact .enclosed inner.begins
  case inr.inr =>
    obtain ⟨n, used, rfl, inner, -, -, ends⟩ := (exact_disjunction exact' _ _ _).mp hinner
    refine .misplaced (t :: used) rest rfl (by simp) ?_ ?_
    · rw [List.map_cons, ht]
      exact .enclosed inner.begins
    · have run : Stance.run ⟨depth + 1, true⟩ (used.map Placed.token) = some ⟨depth + 1, false⟩ :=
        inner.run_eq (depth + 1)
      rw [List.map_append, List.map_cons, ht, List.cons_append]
      show Stance.run ⟨depth + 1, true⟩ (used.map Placed.token ++ [u.token]) = none
      rw [Stance.run_append, run, Option.bind_some, Stance.run_cons,
        step_eq_none_of_ends ends fun closing => absurd closing other]
      rfl

theorem blaming_factor (endColumn levels : Nat) :
    Blaming endColumn .factor (factor endColumn levels) := by
  induction levels using Nat.strongRecOn with
  | ind levels ih =>
    intro depth ts fault h shallow
    rcases factor_eq_error h shallow with ⟨rfl, rfl⟩ | ⟨t, rest, rfl, hfault⟩
    case inl => exact .ended begins_factor_nil rfl
    rcases hfault with ⟨ht, l, hread, rfl⟩ | ⟨ht, l, hread, rfl⟩ | ⟨stuck, rfl⟩
    · have part := ih l (Nat.lt_succ_self l) depth rest fault (negation_eq_error hread shallow)
        shallow
      refine part.within [t] (fun us h => ?_) ?_
      · rw [List.map_singleton, List.singleton_append, ht]
        exact h.not
      · rw [List.map_singleton, ht]
        rfl
    · exact blames_enclosed (exact_factor endColumn l) (ih l (Nat.lt_succ_self l)) depth ht hread
        shallow
    · refine .misplaced [] rest rfl (by simp) begins_factor_nil ?_
      show Stance.run ⟨depth, true⟩ [t.token] = none
      rw [Stance.run_cons, stuck]
      rfl

/-! ## Whole texts -/

/-- A sequence of tokens that is refused, but for its depth, is empty or blamed as an expression. -/
theorem blames_ofTokens (h : ofTokens endColumn ts = .error fault)
    (shallow : fault.cause ≠ .tooDeep) : (ts = [] ∧ fault = ⟨1, .empty⟩) ∨
      (ts ≠ [] ∧ Phrase.expr.Blames endColumn 0 ts fault) := by
  have exact' := exact_disjunction (exact_factor endColumn maxDepth)
  have blaming := blaming_disjunction (exact_factor endColumn maxDepth)
    (blaming_factor endColumn maxDepth)
  unfold ofTokens at h
  split at h
  case isTrue none =>
    cases h
    exact .inl ⟨List.isEmpty_iff.mp none, rfl⟩
  case isFalse some =>
    refine .inr ⟨fun none => some (List.isEmpty_iff.mpr none), ?_⟩
    split at h
    case h_1 hread =>
      cases h
      exact blaming 0 ts fault hread shallow
    case h_2 => cases h
    case h_3 a t rest hlength hread =>
      cases h
      obtain ⟨n, used, rfl, whole, -, -, ends⟩ := (exact' _ _ _).mp ⟨hlength, hread⟩
      refine .misplaced used rest rfl (by simp) whole.begins ?_
      have run : Stance.run ⟨0, true⟩ (used.map Placed.token) = _ := whole.run_eq 0
      rw [List.map_append]
      show Stance.run ⟨0, true⟩ _ = none
      rw [Stance.run_append, run, Option.bind_some, List.map_singleton, Stance.run_cons,
        step_eq_none_of_ends ends fun _ => rfl]
      rfl

/-- The column that a sequence of tokens is blamed in, where the last column is the one after the
text: the last `(` that is never closed, or the first place where no expression goes on. -/
theorem located_of_blames {cs : List Char} {placed : List Placed} {cause : SyntaxCause}
    (hscan : scan 1 cs = .ok placed)
    (h : Phrase.expr.Blames (cs.length + 1) 0 placed ⟨column, cause⟩) :
    (cause = .unclosed → Viable (placed.map Placed.token) ∧
      ∃ before after, TokenAt cs column before .opening after ∧ LastUnclosed after) ∧
    (cause ≠ .unclosed →
      (∃ before t after, TokenAt cs column before t after ∧ Viable before ∧
        ¬ Viable (before ++ [t])) ∨
      (column = cs.length + 1 ∧ Viable (placed.map Placed.token) ∧
        ¬ Grammatical (placed.map Placed.token))) := by
  cases h with
  | ended viable last =>
    refine ⟨nofun, fun _ => .inr ⟨rfl, viable, fun whole => ?_⟩⟩
    have run := whole.run_eq
    rw [show Stance.start.run _ = _ from last] at run
    cases run
  | @misplaced before after t _ hplaced other viable stuck =>
    refine ⟨fun same => absurd same other, fun _ => .inl ?_⟩
    rw [List.map_append] at stuck
    exact ⟨_, _, _, tokenAt_of_scan hscan hplaced, viable, not_viable stuck⟩
  | @unclosed before after t hplaced ht viable inner =>
    have place := tokenAt_of_scan hscan hplaced
    rw [ht] at place
    exact ⟨fun _ => ⟨viable, _, _, place, inner.lastUnclosed⟩, fun other => absurd rfl other⟩

/-- A text that is refused for another reason than its depth is blamed in a column of the text, or
in the one after it.  If the text has foreign characters, that is the column of the first of them;
if it has no tokens, the first column; if a parenthesis is unclosed, that of the last `(` that is
never closed, and the tokens begin an expression.  In any other case the tokens before the column
begin an expression, and with the token in the column they begin none, or there is no token in the
column because the text has ended, and it is no expression. -/
theorem column_of_fault {text : String} {column : Nat} {cause : SyntaxCause}
    (refused : parse text = .error ⟨column, cause⟩) (shallow : cause ≠ .tooDeep) :
    (1 ≤ column ∧ column ≤ text.length + 1) ∧
    ((∃ c ∈ text.toList, ¬ InAlphabet c) → ForeignAt text.toList column) ∧
    ((∀ c ∈ text.toList, InAlphabet c) → ∃ ts, Lexes text.toList ts ∧
      (ts = [] → column = 1) ∧
      (ts ≠ [] → cause = .unclosed → Viable ts ∧
        ∃ before after, TokenAt text.toList column before .opening after ∧ LastUnclosed after) ∧
      (ts ≠ [] → cause ≠ .unclosed →
        (∃ before t after, TokenAt text.toList column before t after ∧ Viable before ∧
          ¬ Viable (before ++ [t])) ∨
        (column = text.length + 1 ∧ Viable ts ∧ ¬ Grammatical ts))) := by
  rw [← String.length_toList]
  rw [parse, ofChars] at refused
  cases hscan : scan 1 text.toList with
  | error fault =>
    rw [hscan] at refused
    cases refused
    obtain ⟨before, c, after, cut, hfault, native, foreign⟩ := exists_of_scan_eq_error hscan
    have place : ForeignAt text.toList column := by
      cases hfault
      exact ⟨before, c, after, cut, Nat.add_comm _ _, native, foreign⟩
    refine ⟨⟨place.bounds.1, Nat.le_succ_of_le place.bounds.2⟩, fun _ => place, fun all => ?_⟩
    exact absurd (all c (by rw [cut]; simp)) foreign
  | ok placed =>
    rw [hscan] at refused
    have lexes := lexes_of_scan hscan
    have clean : (∃ c ∈ text.toList, ¬ InAlphabet c) → ForeignAt text.toList column := by
      rintro ⟨c, hc, foreign⟩
      exact absurd (lexes.inAlphabet c hc) foreign
    rcases blames_ofTokens refused shallow with ⟨rfl, hfault⟩ | ⟨some, blames⟩
    case inl =>
      cases hfault
      exact ⟨⟨Nat.le_refl 1, Nat.le_add_left 1 _⟩, clean,
        fun _ => ⟨[], lexes, fun _ => rfl, fun nonempty => absurd rfl nonempty,
          fun nonempty => absurd rfl nonempty⟩⟩
    case inr =>
      obtain ⟨unclosed, misplaced⟩ := located_of_blames hscan blames
      have bounds : 1 ≤ column ∧ column ≤ text.toList.length + 1 := by
        by_cases h : cause = .unclosed
        · obtain ⟨-, before, after, place, -⟩ := unclosed h
          exact ⟨place.bounds.1, Nat.le_succ_of_le place.bounds.2⟩
        · rcases misplaced h with ⟨before, t, after, place, -⟩ | ⟨rfl, -⟩
          · exact ⟨place.bounds.1, Nat.le_succ_of_le place.bounds.2⟩
          · exact ⟨Nat.le_add_left 1 _, Nat.le_refl _⟩
      refine ⟨bounds, clean, fun _ => ⟨_, lexes, fun none => ?_, fun _ => unclosed,
        fun _ => misplaced⟩⟩
      exact absurd (List.map_eq_nil_iff.mp none) some

namespace Sample

/-- Three parentheses, of which the second one is closed, and a no-break space. -/
def unclosedText : String := "(A |\u00a0(B) & (C"

/-- A name where a `)` has to come, after an ideographic space. -/
def misplacedText : String := "A &\u3000(B C"

end Sample

open Expr.Sample in
theorem column_of_fault_sample :
    (parse unclosedText = .error ⟨12, .unclosed⟩ ∧
      ∃ before after, TokenAt unclosedText.toList 12 before .opening after ∧
        LastUnclosed after) ∧
    parse misplacedText = .error ⟨8, .closingExpected (.feature (.ofRun 'C' [] rfl))⟩ ∧
      ∃ before t after, TokenAt misplacedText.toList 8 before t after ∧ Viable before ∧
        ¬ Viable (before ++ [t]) := by
  have unclosed : parse unclosedText = .error ⟨12, .unclosed⟩ := by decide +kernel
  have misplaced : parse misplacedText =
      .error ⟨8, .closingExpected (.feature (.ofRun 'C' [] rfl))⟩ := by decide +kernel
  have native (text : String) (h : (text.toList.all fun c => Text.isBlank c ||
      ['&', '|', '!', '~', '(', ')'].contains c || isIdentifierChar c) = true) :
      ∀ c ∈ text.toList, InAlphabet c := by
    simpa [InAlphabet, or_assoc] using h
  refine ⟨⟨unclosed, ?_⟩, misplaced, ?_⟩
  · obtain ⟨-, -, located⟩ := column_of_fault unclosed (by decide)
    obtain ⟨ts, -, first, last, -⟩ := located (native _ (by decide))
    exact (last (fun none => absurd (first none) (by decide)) rfl).2
  · obtain ⟨-, -, located⟩ := column_of_fault misplaced (by decide)
    obtain ⟨ts, -, first, -, place⟩ := located (native _ (by decide))
    rcases place (fun none => absurd (first none) (by decide)) (by decide) with h | ⟨past, -⟩
    · exact h
    · exact absurd past (by decide)

end ProductLine.Expr
