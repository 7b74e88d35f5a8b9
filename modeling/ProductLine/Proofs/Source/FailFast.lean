/- # Refused at the first bad line — what a run over a source depends on

A run stops at the first line that is refused, and its fault is about that
line.  The lines after it are not looked at, so the fault stays the same
whatever they are; the lines before it are a source of their own, which is
accepted.  No line takes back what an earlier one has added, so that the
model of those lines is the beginning of the model of any longer source
(`Source.compileText_failFast`).

A prefix is compiled by a run of its own, which draws tickets of its own.
That the faults of two runs can be compared at all is due to
`ProductLine.Proofs.Draft.Alike`, which is carried over to lines first.
-/
import ProductLine.Proofs.Draft.Alike
import ProductLine.Proofs.Draft.Outcome
import ProductLine.Proofs.Source.Run
import ProductLine.Proofs.Text.Lines

namespace ProductLine

namespace Compilation

variable {answer : String → Except EngineFailure (List String)} {c c' : Compilation Id}

/-! ## Runs with other tickets -/

/-- The drafts are alike, and the phase is the same. -/
structure Alike (answer : String → Except EngineFailure (List String)) (c c' : Compilation Id) :
    Prop where
  draft : Draft.Alike answer c.draft c'.draft
  phase : c'.phase = c.phase

theorem Alike.perform (h : Alike answer c c') (d : Directive) (arguments : List Char) :
    SameResult (Alike answer) (c.perform d arguments).run (c'.perform d arguments).run := by
  unfold Compilation.perform
  rw [h.phase]
  split
  · exact ⟨_, c, c', rfl, rfl, h⟩
  cases Statement.edit d arguments with
  | error fault => exact ⟨_, c, c', rfl, rfl, h⟩
  | ok edit =>
    dsimp only
    rw [Id.run_bind, Id.run_bind]
    obtain ⟨result, draft, draft', hrun, hrun', alike⟩ := h.draft.apply edit
    rw [hrun, hrun']
    cases result with
    | error fault => exact ⟨_, _, _, rfl, rfl, alike, rfl⟩
    | ok => exact ⟨_, _, _, rfl, rfl, alike, rfl⟩

theorem Alike.feed (h : Alike answer c c') (line : List Char) :
    SameResult (Alike answer) (c.feed line).run (c'.feed line).run := by
  unfold Compilation.feed
  cases Statement.ofTrimmed (Text.trim line) with
  | skipped => exact ⟨_, c, c', rfl, rfl, h⟩
  | unknown keyword => exact ⟨_, c, c', rfl, rfl, h⟩
  | directive d arguments => exact h.perform d arguments

/-- Runs that start alike end with the same fault or the same model. -/
theorem Alike.feedLines (h : Alike answer c c') (number : Nat) (lines : List (List Char)) :
    (c'.feedLines number (lines.map .ok)).run.map (fun c => c.draft.model) =
      (c.feedLines number (lines.map .ok)).run.map fun c => c.draft.model := by
  induction lines generalizing c c' number with
  | nil => exact congrArg Except.ok h.draft.model
  | cons line lines ih =>
    rw [List.map_cons, Compilation.feedLines, Compilation.feedLines, Id.run_bind, Id.run_bind]
    obtain ⟨result, next, next', hrun, hrun', alike⟩ := h.feed line
    rw [hrun, hrun']
    cases result with
    | error fault => rfl
    | ok => exact ih alike (number + 1)

/-! ## Cutting a run in two -/

variable {number : Nat}

/-- A run over lines goes through the first of them, and from there through the others. -/
theorem feedLines_append_eq_ok_iff {lines lines' : List (List Char)} {final : Compilation Id} :
    (c.feedLines number ((lines ++ lines').map .ok)).run = .ok final ↔ ∃ between,
      (c.feedLines number (lines.map .ok)).run = .ok between ∧
      (between.feedLines (number + lines.length) (lines'.map .ok)).run = .ok final := by
  induction lines generalizing c number with
  | nil =>
    constructor
    · exact fun h => ⟨c, rfl, h⟩
    · rintro ⟨_, ⟨⟩, h⟩
      exact h
  | cons line lines ih =>
    rw [List.cons_append, List.length_cons, Nat.add_comm lines.length, ← Nat.add_assoc]
    simp only [feedLines_cons_eq_ok_iff, ih]
    constructor
    · rintro ⟨next, hline, between, hlines, h⟩
      exact ⟨between, ⟨next, hline, hlines⟩, h⟩
    · rintro ⟨between, ⟨next, hline, hlines⟩, h⟩
      exact ⟨next, hline, between, hlines, h⟩

theorem feedLines_cons_eq_error_iff {line : List Char} {lines : List (List Char)}
    {fault : SourceFault} :
    (c.feedLines number ((line :: lines).map .ok)).run = .error fault ↔
      (∃ cause, (c.feed line).run.1 = .error cause ∧
        fault = .line number (String.ofList (Text.trim line)) cause) ∨
      ∃ next, (c.feed line).run = (.ok (), next) ∧
        (next.feedLines (number + 1) (lines.map .ok)).run = .error fault := by
  rw [List.map_cons, feedLines, Id.run_bind]
  generalize (c.feed line).run = r
  obtain ⟨result, next⟩ := r
  cases result with
  | error cause =>
    constructor
    · exact fun h => .inl ⟨cause, rfl, (Except.error.inj h).symm⟩
    · rintro (⟨_, ⟨⟩, rfl⟩ | ⟨_, ⟨⟩, -⟩)
      rfl
  | ok =>
    constructor
    · exact fun h => .inr ⟨next, rfl, h⟩
    · rintro (⟨_, ⟨⟩, -⟩ | ⟨_, ⟨⟩, h⟩)
      exact h

/-- A run fails at a line that is refused after all lines before it were accepted. -/
theorem feedLines_eq_error_iff {lines : List (List Char)} {fault : SourceFault} :
    (c.feedLines number (lines.map .ok)).run = .error fault ↔
      ∃ before line after between cause, lines = before ++ line :: after ∧
        (c.feedLines number (before.map .ok)).run = .ok between ∧
        (between.feed line).run.1 = .error cause ∧
        fault = .line (number + before.length) (String.ofList (Text.trim line)) cause := by
  induction lines generalizing c number with
  | nil =>
    refine iff_of_false nofun ?_
    rintro ⟨before, line, after, _, _, hlines, -⟩
    exact List.append_ne_nil_of_right_ne_nil before (List.cons_ne_nil line after) hlines.symm
  | cons first lines ih =>
    have shift (before : List (List Char)) :
        number + 1 + before.length = number + (first :: before).length := by
      rw [List.length_cons]
      omega
    rw [feedLines_cons_eq_error_iff]
    constructor
    · rintro (⟨cause, hfirst, rfl⟩ | ⟨next, hfirst, hlines⟩)
      · exact ⟨[], first, lines, c, cause, rfl, rfl, hfirst, rfl⟩
      · obtain ⟨before, line, after, between, cause, rfl, hbefore, hline, rfl⟩ := ih.mp hlines
        exact ⟨first :: before, line, after, between, cause, rfl,
          feedLines_cons_eq_ok_iff.mpr ⟨next, hfirst, hbefore⟩, hline, by rw [shift]⟩
    · rintro ⟨before, line, after, between, cause, hlines, hbefore, hline, rfl⟩
      cases before with
      | nil =>
        obtain ⟨rfl, rfl⟩ := List.cons.inj hlines
        obtain rfl := Except.ok.inj hbefore
        exact .inl ⟨cause, hline, rfl⟩
      | cons head before =>
        obtain ⟨rfl, rfl⟩ := List.cons.inj hlines
        obtain ⟨next, hfirst, hbefore⟩ := feedLines_cons_eq_ok_iff.mp hbefore
        exact .inr ⟨next, hfirst,
          ih.mpr ⟨before, line, after, between, cause, rfl, hbefore, hline, by rw [shift]⟩⟩

/-! ## What a run adds -/

theorem growsTo_of_feed {line : List Char} (h : (c.feed line).run = (.ok (), c')) :
    c.draft.model.GrowsTo c'.draft.model := by
  rcases feed_eq_ok_iff.mp h with ⟨-, rfl⟩ | ⟨d, arguments, -, hperform⟩
  · exact .refl _
  · obtain ⟨-, edit, draft, -, happly, rfl⟩ := perform_eq_ok_iff.mp hperform
    have grown := (Draft.outcome_apply c.draft edit).growsTo
    rwa [happly] at grown

theorem growsTo_of_feedLines {lines : List (List Char)}
    (h : (c.feedLines number (lines.map .ok)).run = .ok c') :
    c.draft.model.GrowsTo c'.draft.model := by
  induction lines generalizing c number with
  | nil =>
    cases h
    exact .refl _
  | cons line lines ih =>
    obtain ⟨between, hfeed, hrest⟩ := feedLines_cons_eq_ok_iff.mp h
    exact (growsTo_of_feed hfeed).trans (ih hrest)

end Compilation

namespace Source

variable {answer : String → Except EngineFailure (List String)} {n n' : Normalizer Id}
  {name source : String} {lines : List (List Char)} {fault : SourceFault} {model : Model}

/-! ## Lines in any number -/

/-- The ticket counter and the pace of the engine do not show in what lines compile to. -/
theorem compileLines_congr (answers : n.Answers answer) (answers' : n'.Answers answer)
    (lines : List (List Char)) :
    (compileLines name n' (lines.map .ok)).run = (compileLines name n (lines.map .ok)).run := by
  have start : Compilation.Alike answer (.start name n) (.start name n') :=
    ⟨⟨rfl, rfl, answers, answers'⟩, rfl⟩
  unfold compileLines
  rw [Id.run_bind, Id.run_bind, Id.run_pure, Id.run_pure]
  exact start.feedLines 1 lines

/-- The line is refused with the fault after those before it have been accepted. -/
def Blames (name : String) (n : Normalizer Id) (before : List (List Char)) (line : List Char)
    (fault : SourceFault) : Prop :=
  ∃ between cause,
    ((Compilation.start name n).feedLines 1 (before.map .ok)).run = .ok between ∧
    (between.feed line).run.1 = .error cause ∧
    fault = .line (before.length + 1) (String.ofList (Text.trim line)) cause

/-- Lines are refused if one of them is to blame. -/
theorem compileLines_eq_error_iff :
    (compileLines name n (lines.map .ok)).run = .error fault ↔
      ∃ before line after, lines = before ++ line :: after ∧ Blames name n before line fault := by
  have run : (compileLines name n (lines.map .ok)).run = .error fault ↔
      ((Compilation.start name n).feedLines 1 (lines.map .ok)).run = .error fault := by
    unfold compileLines
    rw [Id.run_bind, Id.run_pure]
    cases ((Compilation.start name n).feedLines 1 (lines.map .ok)).run with
    | error => simp [Except.map]
    | ok => simp [Except.map]
  rw [run, Compilation.feedLines_eq_error_iff]
  constructor
  · rintro ⟨before, line, after, between, cause, hlines, hbefore, hline, rfl⟩
    exact ⟨before, line, after, hlines, between, cause, hbefore, hline, by rw [Nat.add_comm]⟩
  · rintro ⟨before, line, after, hlines, between, cause, hbefore, hline, rfl⟩
    exact ⟨before, line, after, between, cause, hlines, hbefore, hline, by rw [Nat.add_comm]⟩

/-- Lines that begin with refused ones are refused, and with the same fault, whatever else they
are. -/
theorem compileLines_eq_error_of_take {k : Nat} {lines' : List (List Char)}
    (h : (compileLines name n ((lines.take k).map .ok)).run = .error fault)
    (same : lines'.take k = lines.take k) :
    (compileLines name n (lines'.map .ok)).run = .error fault := by
  obtain ⟨before, line, after, htake, blames⟩ := compileLines_eq_error_iff.mp h
  refine compileLines_eq_error_iff.mpr ⟨before, line, after ++ lines'.drop k, ?_, blames⟩
  rw [← List.cons_append, ← List.append_assoc, ← htake, ← same, List.take_append_drop]

/-- What is accepted was accepted before its last lines were there. -/
theorem exists_growsTo_of_compileLines_append {more : List (List Char)}
    (h : (compileLines name n ((lines ++ more).map .ok)).run = .ok model) :
    ∃ model', (compileLines name n (lines.map .ok)).run = .ok model' ∧
      model'.GrowsTo model := by
  obtain ⟨final, hrun, rfl⟩ := compileLines_eq_ok_iff.mp h
  obtain ⟨between, hlines, hmore⟩ := Compilation.feedLines_append_eq_ok_iff.mp hrun
  exact ⟨between.draft.model, compileLines_eq_ok_iff.mpr ⟨between, hlines, rfl⟩,
    Compilation.growsTo_of_feedLines hmore⟩

theorem category_line_ne_file (number : Nat) (text : String) (cause : LineFault) :
    (SourceFault.line number text cause).category ≠ .file := by
  cases cause with
  | directive fault => nofun
  | model fault => cases fault <;> nofun

/-- If the first `k` lines are refused and no fewer are, the last of them is to blame. -/
theorem exists_blames_of_isLeast {k : Nat}
    (h : IsLeast {k | ∃ fault, (compileLines name n ((lines.take k).map .ok)).run = .error fault}
      k) :
    ∃ fault before line, (compileLines name n ((lines.take k).map .ok)).run = .error fault ∧
      k = before.length + 1 ∧ lines[before.length]? = some line ∧
      Blames name n before line fault := by
  obtain ⟨⟨fault, refused⟩, least⟩ := h
  obtain ⟨before, line, after, htake, blames⟩ := compileLines_eq_error_iff.mp refused
  have late : before.length + 1 ≤ k := by
    have bound := List.length_take_le k lines
    rw [htake, List.length_append, List.length_cons] at bound
    omega
  have early : k ≤ before.length + 1 := by
    refine least ⟨fault, compileLines_eq_error_iff.mpr ⟨before, line, [], ?_, blames⟩⟩
    rw [← Nat.min_eq_left late, ← List.take_take, htake, List.take_length_add_append,
      List.take_succ_cons, List.take_zero]
  have last : (lines.take k)[before.length]? = some line := by
    rw [htake, List.getElem?_append_right (Nat.le_refl _), Nat.sub_self]
    rfl
  rw [List.getElem?_take_of_lt late] at last
  exact ⟨fault, before, line, refused, Nat.le_antisymm early late, last, blames⟩

/-! ## Sources -/

/-- The source through its `k`-th line feed. -/
def firstLines (k : Nat) (source : String) : String :=
  String.ofList (Text.firstLines k source.toList)

/-- The source is refused. -/
def Refused (name : String) (n : Normalizer Id) (source : String) : Prop :=
  ∃ fault, (compileText name n source).run = .error fault

theorem compileText_firstLines (k : Nat) :
    compileText name n (firstLines k source) =
      compileLines name n (((Text.lines source.toList).take k).map .ok) := by
  rw [compileText, firstLines, String.toList_ofList, Text.lines_firstLines]

/-- A source is refused if and only if it begins with lines that are refused by themselves.  The
fault is about the last line of the shortest such beginning, and remains whatever is put in the
place of the lines after it.  A source that is accepted begins with sources that are, and whose
models are beginnings of its own. -/
theorem compileText_failFast (answers : n.Answers answer) (answers' : n'.Answers answer)
    (name source : String) :
    (Refused name n source ↔ ∃ k, Refused name n' (firstLines k source)) ∧
    (∀ k, IsLeast {k | Refused name n' (firstLines k source)} k →
      ∃ fault, (compileText name n source).run = .error fault ∧
        fault.lineNumber? = some k ∧ fault.category ≠ .file ∧
        (∃ i line cause, k = i + 1 ∧ (Text.lines source.toList)[i]? = some line ∧
          fault = .line k (String.ofList (Text.trim line)) cause) ∧
        ∀ source', (Text.lines source'.toList).take k = (Text.lines source.toList).take k →
          (compileText name n' source').run = .error fault) ∧
    ∀ model, (compileText name n source).run = .ok model →
      ∀ k, ∃ model', (compileText name n' (firstLines k source)).run = .ok model' ∧
        model'.GrowsTo model := by
  unfold Refused
  simp only [compileText_firstLines]
  simp only [compileText, compileLines_congr answers answers']
  generalize Text.lines source.toList = lines
  refine ⟨⟨?whole, ?beginning⟩, ?shortest, ?accepted⟩
  case whole =>
    rintro ⟨fault, refused⟩
    exact ⟨lines.length, fault, by rwa [List.take_length]⟩
  case beginning =>
    rintro ⟨k, fault, refused⟩
    exact ⟨fault, compileLines_eq_error_of_take refused rfl⟩
  case shortest =>
    intro k least
    obtain ⟨fault, before, line, refused, hk, hline, _, cause, -, -, hfault⟩ :=
      exists_blames_of_isLeast least
    rw [← hk] at hfault
    refine ⟨fault, compileLines_eq_error_of_take refused rfl, ?_, ?_,
      ⟨before.length, line, cause, hk, hline, hfault⟩, fun source' =>
        compileLines_eq_error_of_take refused⟩
    · rw [hfault]
      rfl
    · rw [hfault]
      exact category_line_ne_file k _ cause
  case accepted =>
    intro model accepted k
    rw [← List.take_append_drop k lines] at accepted
    exact exists_growsTo_of_compileLines_append accepted

namespace Sample

/-- The fourth line declares again what the second one has declared. -/
def repeated : String :=
  "%% twice\nmandatory A\n\n  optional A \noptional B\n"

def repeatedFault : SourceFault :=
  .line 4 "optional A" (.model (.violation (.redefinition Cnf.Sample.a .feature)))

/-- The model of the lines before that one. -/
def once : Model where
  name := "m"
  features := [Cnf.Sample.a]
  mandatory := [Cnf.Sample.a]

def first : Normalizer Id := .default { family := 0 }

/-- A normalizer of another family, some of whose tickets have been drawn. -/
def second : Normalizer Id := .default { family := 1, next := 3 }

end Sample

open ProductLine.Source.Sample in
theorem compileText_repeated :
    (compileText "m" first repeated).run = .error repeatedFault ∧
      (∀ source', (Text.lines source'.toList).take 4 = (Text.lines repeated.toList).take 4 →
        (compileText "m" second source').run = .error repeatedFault) ∧
      (compileText "m" first (firstLines 3 repeated)).run = .ok once ∧
      ∀ k, ∃ model, (compileText "m" second (firstLines k (firstLines 3 repeated))).run =
        .ok model ∧ model.GrowsTo once := by
  have builtin : (Engine.builtin Cnf.defaultMaxClauses {} : Engine Id).DependsOnExpression :=
    Engine.builtin_dependsOnExpression _ _
  obtain ⟨answer, answers⟩ := Normalizer.exists_answers builtin Normalizer.defaultTimeout
  obtain ⟨-, refused, -⟩ := compileText_failFast (answers first.tickets) (answers second.tickets)
    "m" repeated
  obtain ⟨-, -, accepted⟩ := compileText_failFast (answers first.tickets) (answers second.tickets)
    "m" (firstLines 3 repeated)
  have fault : (compileText "m" first repeated).run = .error repeatedFault := by cbv
  have fewer (k : Nat) (h : k < 4) :
      (compileText "m" second (firstLines k repeated)).run.isOk = true := by
    interval_cases k <;> cbv
  have least : IsLeast {k | Refused "m" second (firstLines k repeated)} 4 := by
    refine ⟨⟨repeatedFault, by cbv⟩, ?_⟩
    rintro k ⟨fault, hk⟩
    by_contra h
    have ok := fewer k (Nat.lt_of_not_le h)
    rw [hk] at ok
    cases ok
  obtain ⟨_, hfault, -, -, -, stays⟩ := refused 4 least
  obtain rfl := Except.error.inj (fault.symm.trans hfault)
  have before : (compileText "m" first (firstLines 3 repeated)).run = .ok once := by cbv
  exact ⟨fault, stays, before, accepted once before⟩

end Source

end ProductLine
