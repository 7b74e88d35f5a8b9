/- # The exclusion lock — one accepted exclusion, and the features stay

Two things close a source to everything but exclusions, and neither of them
is a refused line: the phase changes when an `excluded` directive has been
carried out, and nothing changes it back.  From then on an admitted line adds
constraints alone, so the features that the first exclusion was about are
those of the finished model.

`Compilation.Runs` carries both facts over any lines, accepted, refused and
skipped ones alike.  In a source that is accepted there are no refused lines,
and its exclusions therefore come last.
-/
import ProductLine.Proofs.Source.Line
import ProductLine.Proofs.Source.Meaning

namespace ProductLine

/-- The models agree on everything but their constraints. -/
structure Model.SameFeatures (m m' : Model) : Prop where
  features : m'.features = m.features
  mandatory : m'.mandatory = m.mandatory
  optional : m'.optional = m.optional
  alternatives : m'.alternatives = m.alternatives

namespace Model.SameFeatures

theorem refl (m : Model) : m.SameFeatures m :=
  ⟨rfl, rfl, rfl, rfl⟩

theorem trans {m₁ m₂ m₃ : Model} (h : m₁.SameFeatures m₂) (h' : m₂.SameFeatures m₃) :
    m₁.SameFeatures m₃ where
  features := h'.features.trans h.features
  mandatory := h'.mandatory.trans h.mandatory
  optional := h'.optional.trans h.optional
  alternatives := h'.alternatives.trans h.alternatives

end Model.SameFeatures

/-- The directive of a statement that has one. -/
def Statement.directive? : Statement → Option Directive
  | directive d _ => some d
  | _ => none

/-- No exclusion stands before another directive. -/
def Directive.ExclusionsLast (ds : List Directive) : Prop :=
  ∃ before after, ds = before ++ after ∧ (∀ d ∈ before, d ≠ .excluded) ∧
    ∀ d ∈ after, d = .excluded

namespace Compilation

variable {m : Type → Type} {c c' : Compilation m} {s : Statement} {lines : List (List Char)}
  {result : Except LineFault Unit} {results : List (Except LineFault Unit)}

/-! ## One line -/

theorem phaseAfter_eq_exclusionLocked_iff {phase : Phase} {d : Directive} :
    phaseAfter phase d = .exclusionLocked ↔ phase = .exclusionLocked ∨ d = .excluded := by
  unfold phaseAfter
  split
  case isTrue h => exact iff_of_true rfl (.inr h)
  case isFalse h => exact (or_iff_left h).symm

/-- The phase after a line is locked if it was before, or if the line is an exclusion that has been
accepted. -/
theorem Fed.phase_iff (h : Fed c s (result, c')) : c'.phase = .exclusionLocked ↔
    c.phase = .exclusionLocked ∨
      (result = .ok () ∧ ∃ arguments, s = .directive .excluded arguments) := by
  cases h with
  | skipped => simp
  | unknown => simp
  | outOfOrder locked => simp [locked]
  | malformed => simp
  | refused => simp
  | accepted texts tickets admitted =>
    rw [phaseAfter_eq_exclusionLocked_iff]
    simp

/-- Since the first exclusion a line adds constraints at most. -/
theorem Fed.sameFeatures (h : Fed c s (result, c')) (locked : c.phase = .exclusionLocked) :
    c.draft.model.SameFeatures c'.draft.model := by
  cases h with
  | skipped | unknown | outOfOrder | malformed | refused => exact .refl _
  | accepted texts tickets admitted hedit =>
    obtain rfl := admitted locked
    obtain ⟨listed, -, rfl⟩ := Statement.edit_excluded_eq_ok_iff.mp hedit
    exact ⟨rfl, rfl, rfl, rfl⟩

/-! ## Any number of lines -/

/-- The phase after a run is locked if it was before, or if one of the lines is an exclusion that
has been accepted. -/
theorem Runs.phase_iff (h : Runs c lines results c') : c'.phase = .exclusionLocked ↔
    c.phase = .exclusionLocked ∨ ∃ line arguments, (line, .ok ()) ∈ lines.zip results ∧
      Statement.ofLine line = .directive .excluded arguments := by
  induction h with
  | nil => simp
  | @cons c next final line lines result results fed _ ih =>
    rw [ih, fed.phase_iff, or_assoc]
    refine or_congr_right ?_
    constructor
    · rintro (⟨rfl, arguments, hline⟩ | ⟨line', arguments, hmem, hline⟩)
      · exact ⟨line, arguments, List.mem_cons_self, hline⟩
      · exact ⟨line', arguments, List.mem_cons_of_mem _ hmem, hline⟩
    · rintro ⟨line', arguments, hmem, hline⟩
      rcases List.mem_cons.mp hmem with heq | hmem
      · obtain ⟨rfl, rfl⟩ := Prod.mk.inj heq
        exact .inl ⟨rfl, arguments, hline⟩
      · exact .inr ⟨line', arguments, hmem, hline⟩

/-- The lock stays, and the features with it. -/
theorem Runs.stays (h : Runs c lines results c') (locked : c.phase = .exclusionLocked) :
    c'.phase = .exclusionLocked ∧ c.draft.model.SameFeatures c'.draft.model := by
  induction h with
  | nil c => exact ⟨locked, .refl _⟩
  | cons fed _ ih =>
    obtain ⟨final, same⟩ := ih (fed.phase_iff.mpr (.inl locked))
    exact ⟨final, (fed.sameFeatures locked).trans same⟩

/-- The directives of accepted lines, exclusions last; none but exclusions if the lock was set. -/
theorem Runs.exclusionsLast (h : Runs c lines (lines.map fun _ => .ok ()) c') :
    ∃ before after, (lines.map Statement.ofLine).filterMap Statement.directive? = before ++ after ∧
      (∀ d ∈ before, d ≠ .excluded) ∧ (∀ d ∈ after, d = .excluded) ∧
      (c.phase = .exclusionLocked → before = []) := by
  induction lines generalizing c with
  | nil => exact ⟨[], [], rfl, by simp, by simp, fun _ => rfl⟩
  | cons line lines ih =>
    cases h with
    | @cons _ next _ _ _ _ _ fed rest =>
      obtain ⟨before, after, hrest, hbefore, hafter, free⟩ := ih rest
      rw [List.map_cons]
      generalize Statement.ofLine line = s at fed
      cases fed with
      | skipped => exact ⟨before, after, hrest, hbefore, hafter, free⟩
      | @accepted d arguments edit texts tickets admitted hedit rules =>
        have head : (Statement.directive d arguments :: lines.map Statement.ofLine).filterMap
            Statement.directive? = d :: (before ++ after) :=
          congrArg (List.cons d) hrest
        rw [head]
        by_cases hd : d = .excluded
        case pos =>
          obtain rfl := free (phaseAfter_eq_exclusionLocked_iff.mpr (.inr hd))
          exact ⟨[], d :: after, rfl, by simp, List.forall_mem_cons.mpr ⟨hd, hafter⟩,
            fun _ => rfl⟩
        case neg =>
          exact ⟨d :: before, after, rfl, List.forall_mem_cons.mpr ⟨hd, hbefore⟩, hafter,
            fun locked => absurd (admitted locked) hd⟩

/-! ## What a locked source makes of a line -/

section Locked

variable [Monad m] {line : List Char}

theorem feed_of_locked (locked : c.phase = .exclusionLocked) {d : Directive}
    (other : d ≠ .excluded) (hword : (Statement.parts line).1 = d.keyword.toList) :
    c.feed line = pure (.error (.model (.violation (.directiveOrder d))), c) := by
  have hline : Statement.ofLine line = .directive d (Statement.parts line).2 :=
    Statement.ofLine_eq_directive_iff.mpr (Prod.ext hword rfl)
  unfold feed
  rw [← Statement.ofLine, hline]
  exact if_pos ⟨locked, other⟩

theorem feed_of_idle (c : Compilation m) (idle : Statement.Idle line) :
    c.feed line = pure (.ok (), c) := by
  unfold feed
  rw [← Statement.ofLine, Statement.ofLine_eq_skipped_iff.mpr idle]

theorem feed_of_unknown (c : Compilation m) (busy : ¬ Statement.Idle line)
    (other : ∀ d : Directive, (Statement.parts line).1 ≠ d.keyword.toList) :
    c.feed line = pure (.error (.directive
      (.unknownDirective (String.ofList (Statement.parts line).1))), c) := by
  unfold feed
  rw [← Statement.ofLine, Statement.ofLine_eq_unknown busy other]

end Locked

end Compilation

open Compilation

/-- Whatever the engine is and whatever it does: after any lines the source is locked if and only if
an exclusion among them has been accepted.  A locked source stays locked and keeps its features; of
the lines that follow it refuses, before it looks at their arguments, all directives but exclusions,
while unknown keywords are refused as such and idle lines are skipped.  In an accepted source
exclusions come last. -/
theorem Source.exclusionLock {m : Type → Type} [Monad m] [LawfulMonad m] (name : String)
    (n : Normalizer m) :
    (∀ lines, SatisfiesM (fun run => run.2.phase = .exclusionLocked ↔
        ∃ line arguments, (line, .ok ()) ∈ lines.zip run.1 ∧
          Statement.ofLine line = .directive .excluded arguments)
      ((start name n).feedAll lines)) ∧
    (∀ c : Compilation m, c.phase = .exclusionLocked →
      (∀ lines, SatisfiesM (fun run => run.2.phase = .exclusionLocked ∧
          c.draft.model.SameFeatures run.2.draft.model) (c.feedAll lines)) ∧
      ∀ line,
        (∀ d ≠ Directive.excluded, (Statement.parts line).1 = d.keyword.toList →
          c.feed line = pure (.error (.model (.violation (.directiveOrder d))), c)) ∧
        (¬ Statement.Idle line → (∀ d : Directive, (Statement.parts line).1 ≠ d.keyword.toList) →
          c.feed line = pure (.error (.directive
            (.unknownDirective (String.ofList (Statement.parts line).1))), c)) ∧
        (Statement.Idle line → c.feed line = pure (.ok (), c))) ∧
    ∀ source, SatisfiesM (fun result => ∀ model, result = .ok model →
        Directive.ExclusionsLast ((Source.statements source).filterMap Statement.directive?))
      (Source.compileText name n source) := by
  refine ⟨fun lines => ?phase, fun c locked => ⟨fun lines => ?stays, fun line => ?line⟩,
    fun source => ?source⟩
  case phase =>
    refine (satisfies_feedAll (start name n) lines).imp fun runs => ?_
    exact runs.phase_iff.trans (or_iff_right nofun)
  case stays => exact (satisfies_feedAll c lines).imp fun runs => runs.stays locked
  case line =>
    exact ⟨fun d other hword => feed_of_locked locked other hword, feed_of_unknown c,
      feed_of_idle c⟩
  case source =>
    refine .bind (satisfies_feedLines _ 1 _) fun result h => .pure fun model hmodel => ?_
    cases result with
    | error fault => cases hmodel
    | ok final =>
      obtain ⟨texts, htexts, runs⟩ := h final rfl
      obtain rfl : Text.lines source.toList = texts :=
        List.map_injective_iff.mpr (fun _ _ => Except.ok.inj) htexts
      obtain ⟨before, after, hds, hbefore, hafter, -⟩ := runs.exclusionsLast
      exact ⟨before, after, hds, hbefore, hafter⟩

namespace Sample

/-- The second line is refused and locks nothing; the fourth one is accepted, and of the lines after
it the last alone is admitted. -/
def lockLines : List (List Char) :=
  ["optional A", "excluded A A", "optional B", "excluded A", "optional C D", "feature C",
    "excluded B"].map String.toList

def lockResults : List (Except LineFault Unit) :=
  [.ok (), .error (.model (.violation (.duplicateFeature Cnf.Sample.a))), .ok (), .ok (),
    .error (.model (.violation (.directiveOrder .optional))),
    .error (.directive (.unknownDirective "feature")), .ok ()]

/-- The results of these lines, and the state after them. -/
def lockRun : List (Except LineFault Unit) × Compilation Id :=
  ((Compilation.start "m" (.default { family := 0 } : Normalizer Id)).feedAll lockLines).run

end Sample

open Sample in
theorem Source.exclusionLock_sample :
    lockRun.1 = lockResults ∧ lockRun.2.phase = .exclusionLocked ∧
      lockRun.2.feed "optional C D".toList =
        pure (.error (.model (.violation (.directiveOrder .optional))), lockRun.2) ∧
      Directive.ExclusionsLast
        ((Source.statements locked).filterMap Statement.directive?) := by
  obtain ⟨phase, after, source⟩ :=
    Source.exclusionLock "m" (.default { family := 0 } : Normalizer Id)
  have results : lockRun.1 = lockResults := by cbv
  have isLocked : lockRun.2.phase = .exclusionLocked := by
    refine (satisfiesM_id_iff.mp (phase lockLines)).mpr ⟨"excluded A".toList, ['A'], ?_, by cbv⟩
    change _ ∈ lockLines.zip lockRun.1
    rw [results]
    exact List.mem_of_getElem? (i := 3) rfl
  refine ⟨results, isLocked, ((after _ isLocked).2 _).1 .optional (by decide) (by cbv), ?_⟩
  exact satisfiesM_id_iff.mp (source locked) lockedModel (by cbv)

end ProductLine
