/- # Lines — what one line says, and what it comes to

`Statement.ofLine` looks at a line in a fixed order: nothing or a comment,
then the first word, then the word's place among the keywords.  The lemmas
here read this off the text of the line.
-/
import ProductLine.Proofs.Draft.Outcome
import ProductLine.Proofs.Source.Run

namespace ProductLine

namespace Statement

variable {line arguments : List Char} {d : Directive}

/-- A line without its surrounding white space is empty or a comment. -/
def Idle (line : List Char) : Prop :=
  Text.trim line = [] ∨ commentMark.toList <+: Text.trim line

/-- The first word of a line, and the trimmed text after it. -/
def parts (line : List Char) : List Char × List Char :=
  Text.splitWord (Text.trim line)

theorem ofLine_eq_skipped_iff : ofLine line = .skipped ↔ Idle line := by
  unfold ofLine ofTrimmed Idle
  rw [← List.isPrefixOf_iff_prefix, ← List.isEmpty_iff, ← Bool.or_eq_true]
  split
  case isTrue idle => exact iff_of_true rfl idle
  case isFalse busy =>
    refine iff_of_false (fun h => ?_) busy
    dsimp only at h
    split at h <;> cases h

/-- What a line says that is neither empty nor a comment depends on its first word. -/
theorem ofLine_of_not_idle (busy : ¬ Idle line) : ofLine line =
    match Directive.ofKeyword? (String.ofList (parts line).1) with
    | none => .unknown (String.ofList (parts line).1)
    | some d => .directive d (parts line).2 := by
  unfold Idle at busy
  rw [← List.isPrefixOf_iff_prefix, ← List.isEmpty_iff, ← Bool.or_eq_true] at busy
  rw [ofLine, ofTrimmed, if_neg busy]
  rfl

/-- The first word of an empty line or a comment is no keyword. -/
theorem keyword_ne_of_idle (idle : Idle line) (d : Directive) :
    (parts line).1 ≠ d.keyword.toList := by
  unfold parts Text.splitWord
  rcases idle with h | ⟨rest, h⟩
  · rw [h]
    cases d <;> decide
  · rw [← h]
    intro heq
    have head := congrArg List.head? heq
    cases d <;> simp [commentMark, Directive.keyword, Text.isBlank, Text.blankRanges] at head

theorem ofKeyword?_eq_some_iff {word : List Char} :
    Directive.ofKeyword? (String.ofList word) = some d ↔ word = d.keyword.toList := by
  constructor
  · intro h
    rw [Directive.keyword_of_ofKeyword? h, String.toList_ofList]
  · rintro rfl
    rw [String.ofList_toList, Directive.ofKeyword?_keyword]

/-- A line is a directive if and only if its first word is the keyword. -/
theorem ofLine_eq_directive_iff :
    ofLine line = .directive d arguments ↔ parts line = (d.keyword.toList, arguments) := by
  by_cases idle : Idle line
  case pos =>
    rw [ofLine_eq_skipped_iff.mpr idle]
    refine iff_of_false nofun fun h => ?_
    exact keyword_ne_of_idle idle d (congrArg Prod.fst h)
  case neg =>
    rw [ofLine_of_not_idle idle]
    generalize parts line = p
    obtain ⟨word, rest⟩ := p
    dsimp only
    rw [Prod.mk.injEq, ← ofKeyword?_eq_some_iff]
    split
    case h_1 h => simp [h]
    case h_2 d' h => simp [h]

/-- A line that is neither idle nor a directive is to blame for its first word. -/
theorem ofLine_eq_unknown (busy : ¬ Idle line)
    (other : ∀ d : Directive, (parts line).1 ≠ d.keyword.toList) :
    ofLine line = .unknown (String.ofList (parts line).1) := by
  rw [ofLine_of_not_idle busy]
  split
  case h_1 => rfl
  case h_2 d h => exact absurd (ofKeyword?_eq_some_iff.mp h) (other d)

end Statement

namespace Compilation

variable {m : Type → Type}

/-! ## What a line comes to -/

/-- What a line that says so much may come to.  The first word is looked at before the phase, the
phase before the arguments, and the arguments before the model. -/
inductive Fed (c : Compilation m) : Statement → Except LineFault Unit × Compilation m → Prop where
  | skipped : Fed c .skipped (.ok (), c)
  | unknown (keyword : String) :
      Fed c (.unknown keyword) (.error (.directive (.unknownDirective keyword)), c)
  | outOfOrder {d : Directive} {arguments : List Char} :
      c.phase = .exclusionLocked → d ≠ .excluded →
      Fed c (.directive d arguments) (.error (.model (.violation (.directiveOrder d))), c)
  | malformed {d : Directive} {arguments : List Char} {fault : LineFault} :
      (c.phase = .exclusionLocked → d = .excluded) → Statement.edit d arguments = .error fault →
      Fed c (.directive d arguments) (.error fault, c)
  | refused {d : Directive} {arguments : List Char} (fault : ModelFault) (tickets : TicketBook) :
      (c.phase = .exclusionLocked → d = .excluded) →
      Fed c (.directive d arguments) (.error (.model fault),
        { c with draft :=
          { c.draft with normalizer := { c.draft.normalizer with tickets := tickets } } })
  | accepted {d : Directive} {arguments : List Char} {edit : Edit} (texts : List String)
      (tickets : TicketBook) :
      (c.phase = .exclusionLocked → d = .excluded) → Statement.edit d arguments = .ok edit →
      edit.Admitted c.draft →
      Fed c (.directive d arguments) (.ok (),
        ⟨⟨edit.extend texts c.draft.model, edit.enter c.draft.index,
          { c.draft.normalizer with tickets := tickets }⟩, phaseAfter c.phase d⟩)

section Monadic

variable [Monad m] [LawfulMonad m]

theorem satisfies_perform (c : Compilation m) (d : Directive) (arguments : List Char) :
    SatisfiesM (Fed c (.directive d arguments)) (c.perform d arguments) := by
  unfold perform
  split
  case isTrue h => exact .pure (.outOfOrder h.1 h.2)
  case isFalse h =>
    have admitted : c.phase = .exclusionLocked → d = .excluded := fun locked =>
      Decidable.not_not.mp fun other => h ⟨locked, other⟩
    cases hedit : Statement.edit d arguments with
    | error fault => exact .pure (.malformed admitted hedit)
    | ok edit =>
      have replies (request : Request) :
          SatisfiesM (fun _ => True) (c.draft.normalizer.engine.reply request) :=
        .of_true fun _ => trivial
      refine .bind (Draft.satisfies_apply replies edit) fun r outcome => ?_
      cases outcome with
      | refused fault tickets => exact .pure (.refused fault tickets admitted)
      | accepted texts tickets rules => exact .pure (.accepted texts tickets admitted hedit rules)

/-- Every line comes to one of these. -/
theorem satisfies_feed (c : Compilation m) (line : List Char) :
    SatisfiesM (Fed c (Statement.ofLine line)) (c.feed line) := by
  unfold feed
  rw [← Statement.ofLine]
  cases Statement.ofLine line with
  | skipped => exact .pure .skipped
  | unknown keyword => exact .pure (.unknown keyword)
  | directive d arguments => exact satisfies_perform c d arguments

end Monadic

/-! ## Runs that go on after a fault -/

/-- Takes in the lines one after the other, also after one that was refused. -/
def feedAll [Monad m] (c : Compilation m) :
    List (List Char) → m (List (Except LineFault Unit) × Compilation m)
  | [] => return ([], c)
  | line :: lines => do
    let (result, c) ← c.feed line
    let (results, c) ← c.feedAll lines
    return (result :: results, c)

/-- From the first state the lines lead to the second one, with these results. -/
inductive Runs : Compilation m → List (List Char) → List (Except LineFault Unit) →
    Compilation m → Prop where
  | nil (c : Compilation m) : Runs c [] [] c
  | cons {c next final : Compilation m} {line : List Char} {lines : List (List Char)}
      {result : Except LineFault Unit} {results : List (Except LineFault Unit)} :
      Fed c (Statement.ofLine line) (result, next) → Runs next lines results final →
      Runs c (line :: lines) (result :: results) final

section Monadic

variable [Monad m] [LawfulMonad m]

theorem satisfies_feedAll (c : Compilation m) (lines : List (List Char)) :
    SatisfiesM (fun run => Runs c lines run.1 run.2) (c.feedAll lines) := by
  induction lines generalizing c with
  | nil => exact .pure (.nil c)
  | cons line lines ih =>
    refine .bind (satisfies_feed c line) fun first fed => ?_
    exact .bind (ih first.2) fun rest runs => .pure (.cons fed runs)

/-- A run that stops at the first fault and comes to its end has accepted every line. -/
theorem satisfies_feedLines (c : Compilation m) (number : Nat)
    (lines : List (Except FileFault (List Char))) :
    SatisfiesM (fun result => ∀ final, result = .ok final →
      ∃ texts : List (List Char), lines = texts.map .ok ∧
        Runs c texts (texts.map fun _ => .ok ()) final) (c.feedLines number lines) := by
  induction lines generalizing c number with
  | nil =>
    refine .pure fun final h => ⟨[], rfl, ?_⟩
    obtain rfl := Except.ok.inj h
    exact .nil c
  | cons line lines ih =>
    cases line with
    | error fault => exact .pure nofun
    | ok line =>
      refine .bind (satisfies_feed c line) fun r fed => ?_
      obtain ⟨result, next⟩ := r
      cases result with
      | error fault => exact .pure nofun
      | ok =>
        refine (ih next (number + 1)).imp fun rest final h => ?_
        obtain ⟨texts, rfl, runs⟩ := rest final h
        exact ⟨line :: texts, rfl, .cons fed runs⟩

/-- The model of an accepted source is that of a run which has accepted all its lines. -/
theorem satisfies_compileText (name : String) (n : Normalizer m) (source : String) :
    SatisfiesM (fun result => ∀ model, result = .ok model → ∃ final,
      Runs (start name n) (Text.lines source.toList)
        ((Text.lines source.toList).map fun _ => .ok ()) final ∧ final.draft.model = model)
      (Source.compileText name n source) := by
  refine .bind (satisfies_feedLines _ 1 _) fun result h => .pure fun model hmodel => ?_
  cases result with
  | error fault => cases hmodel
  | ok final =>
    obtain ⟨texts, htexts, runs⟩ := h final rfl
    obtain rfl : Text.lines source.toList = texts :=
      List.map_injective_iff.mpr (fun _ _ => Except.ok.inj) htexts
    exact ⟨final, runs, Except.ok.inj hmodel⟩

end Monadic

end Compilation

end ProductLine
