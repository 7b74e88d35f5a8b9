/- # A source line by line — what one accepted line does, and what a run keeps

A line that is accepted either says nothing or carries out one edit, which
the phase has to admit; a run that reaches its end has accepted every line.
The lemmas say so for the functions from the inside out.  The induction over
the lines is done once, in `feedLines_invariant`: what holds at the start
and is kept by each accepted line holds of the statements read so far.
-/
import ProductLine.Source.Compile

namespace ProductLine

/-- The statement of a line. -/
def Statement.ofLine (line : List Char) : Statement :=
  ofTrimmed (Text.trim line)

/-- The statements of a source, in their order. -/
def Source.statements (source : String) : List Statement :=
  (Text.lines source.toList).map Statement.ofLine

namespace Compilation

variable {c c' : Compilation Id} {d : Directive} {arguments line : List Char} {number : Nat}

/-- A directive is carried out if the phase admits it, its arguments are right and its edit is
accepted. -/
theorem perform_eq_ok_iff : (c.perform d arguments).run = (.ok (), c') ↔
    (c.phase = .exclusionLocked → d = .excluded) ∧ ∃ edit draft,
      Statement.edit d arguments = .ok edit ∧ (c.draft.apply edit).run = (.ok (), draft) ∧
      c' = ⟨draft, phaseAfter c.phase d⟩ := by
  unfold perform
  constructor
  · intro h
    split at h
    · cases h
    · rename_i admitted
      split at h
      · cases h
      · rename_i edit hedit
        rw [Id.run_bind] at h
        split at h
        · cases h
        · rename_i draft happly
          obtain ⟨-, rfl⟩ := Prod.mk.inj h
          rw [Decidable.not_and_iff_not_or_not, Decidable.not_not] at admitted
          exact ⟨fun locked => admitted.resolve_left (not_not_intro locked), edit, draft, hedit,
            happly, rfl⟩
  · rintro ⟨admitted, edit, draft, hedit, happly, rfl⟩
    rw [if_neg fun refused => refused.2 (admitted refused.1), hedit]
    dsimp only
    rw [Id.run_bind, happly, Id.run_pure]

theorem feed_eq_ok_iff : (c.feed line).run = (.ok (), c') ↔
    (Statement.ofLine line = .skipped ∧ c' = c) ∨ ∃ d arguments,
      Statement.ofLine line = .directive d arguments ∧
      (c.perform d arguments).run = (.ok (), c') := by
  unfold feed
  rw [← Statement.ofLine]
  cases Statement.ofLine line with
  | skipped =>
    constructor
    · intro h
      cases h
      exact .inl ⟨rfl, rfl⟩
    · rintro (⟨-, rfl⟩ | ⟨_, _, heq, -⟩)
      · rfl
      · cases heq
  | unknown keyword =>
    refine iff_of_false (fun h => by cases h) ?_
    rintro (⟨heq, -⟩ | ⟨_, _, heq, -⟩) <;> cases heq
  | directive d arguments =>
    constructor
    · exact fun h => .inr ⟨d, arguments, rfl, h⟩
    · rintro (⟨heq, -⟩ | ⟨_, _, heq, h⟩) <;> cases heq
      exact h

/-- A run over lines that can be read accepts the first and goes on with the others. -/
theorem feedLines_cons_eq_ok_iff {lines : List (List Char)} :
    (c.feedLines number ((line :: lines).map .ok)).run = .ok c' ↔ ∃ between,
      (c.feed line).run = (.ok (), between) ∧
      (between.feedLines (number + 1) (lines.map .ok)).run = .ok c' := by
  rw [List.map_cons, feedLines, Id.run_bind]
  constructor
  · intro h
    split at h
    · cases h
    · rename_i between hfeed
      exact ⟨between, hfeed, h⟩
  · rintro ⟨between, hfeed, hrest⟩
    rw [hfeed]
    exact hrest

/-- What each accepted line keeps, a run keeps. -/
theorem feedLines_invariant {holds : Compilation Id → List Statement → Prop}
    (step : ∀ {c c' line read}, holds c read → (c.feed line).run = (.ok (), c') →
      holds c' (read ++ [Statement.ofLine line]))
    {read : List Statement} {lines : List (List Char)} (start : holds c read)
    (h : (c.feedLines number (lines.map .ok)).run = .ok c') :
    holds c' (read ++ lines.map Statement.ofLine) := by
  induction lines generalizing c number read with
  | nil =>
    cases h
    rwa [List.map_nil, List.append_nil]
  | cons line lines ih =>
    obtain ⟨between, hfeed, hrest⟩ := feedLines_cons_eq_ok_iff.1 h
    have := ih (step start hfeed) hrest
    rwa [List.append_assoc] at this

end Compilation

namespace Source

variable {name source : String} {n : Normalizer Id} {model : Model}

/-- Lines compile to the model of a run over all of them. -/
theorem compileLines_eq_ok_iff {lines : List (Except FileFault (List Char))} :
    (compileLines name n lines).run = .ok model ↔ ∃ final,
      ((Compilation.start name n).feedLines 1 lines).run = .ok final ∧
        final.draft.model = model := by
  unfold compileLines
  rw [Id.run_bind, Id.run_pure]
  cases ((Compilation.start name n).feedLines 1 lines).run with
  | error => simp [Except.map]
  | ok final => simp [Except.map]

/-- A text compiles to the model of a run over all its lines. -/
theorem compileText_eq_ok_iff : (compileText name n source).run = .ok model ↔ ∃ final,
    ((Compilation.start name n).feedLines 1 ((Text.lines source.toList).map .ok)).run =
      .ok final ∧ final.draft.model = model :=
  compileLines_eq_ok_iff

end Source

end ProductLine
