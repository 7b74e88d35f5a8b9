/- # Layout — what of a source does not matter

A line that is empty or a comment says nothing.  Of any other line its words
matter, and of a condition that can be cut into tokens only these; this is the
gist of the line (`Statement.gist`).  Two lines with the same gist are the same
statement in two spellings (`Statement.respelled_of_gist`): their edits are the
same, or differ in the text of a condition from which the same tree is read.

Two sources are run side by side, from one line that says something to the
next.  If the lines have the same gists, one by one, each step of the two runs
comes to the same (`Compilation.Abreast.feed`), and so do the runs.
-/
import ProductLine.Proofs.Draft.Abreast
import ProductLine.Proofs.Expr.Reading
import ProductLine.Proofs.Source.Line
import ProductLine.Proofs.Text.Words

namespace ProductLine

/-! ## The gist of a line -/

/-- The tokens of a text, if it has no foreign character. -/
def Expr.tokens? (cs : List Char) : Option (List Token) :=
  (scan 1 cs).toOption.map (·.map Placed.token)

theorem Expr.tokens?_eq_some_iff {cs : List Char} {ts : List Token} :
    tokens? cs = some ts ↔ Lexes cs ts := by
  unfold tokens?
  constructor
  · intro h
    obtain ⟨placed, hscan, rfl⟩ := Option.map_eq_some_iff.mp h
    cases hcs : scan 1 cs with
    | error fault =>
      rw [hcs] at hscan
      cases hscan
    | ok placed' =>
      rw [hcs] at hscan
      obtain rfl := Option.some.inj hscan
      exact lexes_of_scan hcs
  · intro h
    obtain ⟨placed, hscan, rfl⟩ := scan_of_lexes h 1
    rw [hscan]
    rfl

/-- What remains of a line without its layout: the tokens of a condition, or else the words. -/
inductive Gist where
  | words (words : List (List Char))
  | condition (tokens : List Token)
deriving DecidableEq

namespace Statement

variable {line line' : List Char}

instance : DecidablePred Idle := fun _ => instDecidableOr

/-- The tokens of the expression on a `constraint` line, if it has no foreign character. -/
def condition? (line : List Char) : Option (List Token) :=
  if (parts line).1 = Directive.constraint.keyword.toList then Expr.tokens? (parts line).2 else none

/-- The line without its layout. -/
def gist (line : List Char) : Gist :=
  match condition? line with
  | some tokens => .condition tokens
  | none => .words (Text.words line)

theorem condition?_eq_some_iff {ts : List Token} : condition? line = some ts ↔
    (parts line).1 = Directive.constraint.keyword.toList ∧ Lexes (parts line).2 ts := by
  unfold condition?
  split
  case isTrue keyword => rw [Expr.tokens?_eq_some_iff, and_iff_right keyword]
  case isFalse other => exact iff_of_false nofun fun h => other h.1

/-- The words of a line that says something are its first word and those of its arguments. -/
theorem words_eq_parts (busy : ¬ Idle line) :
    Text.words line = (parts line).1 :: Text.words (parts line).2 := by
  have nonempty : Text.trim line ≠ [] := fun empty => busy (.inl empty)
  rw [← Text.words_trim, Text.words_eq_splitWord (Text.edged_trim line) nonempty]
  rfl

/-! ## Statements in two spellings -/

theorem sameTree_of_lexes {cs cs' : List Char} {ts : List Token} (h : Lexes cs ts)
    (h' : Lexes cs' ts) : Expr.SameTree (String.ofList cs) (String.ofList cs') := by
  have read {cs : List Char} (h : Lexes cs ts) (e : Expr) :
      Expr.parse (String.ofList cs) = .ok e ↔
        ∃ n, Expr.Derives .expr n ts e ∧ e.height ≤ maxDepth ∧ n ≤ maxDepth := by
    rw [Expr.parse, String.toList_ofList, Expr.ofChars_eq_ok_iff]
    constructor
    · rintro ⟨us, n, lexes, rest⟩
      obtain rfl := h.unique lexes
      exact ⟨n, rest⟩
    · rintro ⟨n, rest⟩
      exact ⟨ts, n, h, rest⟩
  intro e
  rw [read h, read h']

/-- No tree is read from a text with a foreign character. -/
theorem parse_ne_ok_of_tokens? {cs : List Char} (h : Expr.tokens? cs = none) (e : Expr) :
    Expr.parse (String.ofList cs) ≠ .ok e := by
  rw [Expr.parse, String.toList_ofList]
  intro hread
  obtain ⟨ts, -, lexes, -⟩ := Expr.ofChars_eq_ok_iff.mp hread
  rw [Expr.tokens?_eq_some_iff.mpr lexes] at h
  cases h

/-- Statements that are the same but for their layout. -/
inductive Respelled : Statement → Statement → Prop where
  | unknown (keyword : String) : Respelled (.unknown keyword) (.unknown keyword)
  | constraint {arguments arguments' : List Char} :
      Expr.SameTree (String.ofList arguments) (String.ofList arguments') →
      Respelled (.directive .constraint arguments) (.directive .constraint arguments')
  | other {d : Directive} {arguments arguments' : List Char} : d ≠ .constraint →
      Text.words arguments' = Text.words arguments →
      Respelled (.directive d arguments) (.directive d arguments')

/-- Lines with the same gist are the same statement. -/
theorem respelled_of_gist (busy : ¬ Idle line) (busy' : ¬ Idle line')
    (same : gist line' = gist line) : Respelled (ofLine line) (ofLine line') := by
  unfold gist at same
  cases hts : condition? line with
  | some ts =>
    cases hts' : condition? line' with
    | none =>
      rw [hts, hts'] at same
      cases same
    | some ts' =>
      rw [hts, hts'] at same
      obtain rfl := Gist.condition.inj same
      obtain ⟨keyword, lexes⟩ := condition?_eq_some_iff.mp hts
      obtain ⟨keyword', lexes'⟩ := condition?_eq_some_iff.mp hts'
      have hline : ofLine line = .directive .constraint (parts line).2 :=
        ofLine_eq_directive_iff.mpr (Prod.ext keyword rfl)
      have hline' : ofLine line' = .directive .constraint (parts line').2 :=
        ofLine_eq_directive_iff.mpr (Prod.ext keyword' rfl)
      rw [hline, hline']
      exact .constraint (sameTree_of_lexes lexes lexes')
  | none =>
    cases hts' : condition? line' with
    | some ts' =>
      rw [hts, hts'] at same
      cases same
    | none =>
      rw [hts, hts'] at same
      have words := Gist.words.inj same
      rw [words_eq_parts busy, words_eq_parts busy'] at words
      obtain ⟨first, rest⟩ := List.cons.inj words
      rw [ofLine_of_not_idle busy, ofLine_of_not_idle busy', first]
      split
      case h_1 => exact .unknown _
      case h_2 d hd =>
        by_cases condition : d = .constraint
        case neg => exact .other condition rest
        case pos =>
          subst condition
          have keyword := ofKeyword?_eq_some_iff.mp hd
          rw [condition?, if_pos keyword] at hts
          rw [condition?, if_pos (first.trans keyword)] at hts'
          refine .constraint fun e => iff_of_false ?_ ?_
          · exact parse_ne_ok_of_tokens? hts e
          · exact parse_ne_ok_of_tokens? hts' e

variable {d : Directive} {arguments arguments' : List Char}

theorem features_congr (same : Text.words arguments' = Text.words arguments) :
    features arguments' = features arguments := by
  rw [features, features, same]

/-- The same words name the same feature, or none. -/
theorem singleFeature_congr (same : Text.words arguments' = Text.words arguments) :
    singleFeature arguments' = singleFeature arguments ∨ ∃ name name',
      singleFeature arguments = .error (.invalidFeatureName name) ∧
      singleFeature arguments' = .error (.invalidFeatureName name') := by
  unfold singleFeature
  rw [same]
  split
  case h_1 => exact .inl rfl
  case h_2 => exact .inr ⟨_, _, rfl, rfl⟩

theorem edit_congr_of_single {make : Feature → Edit}
    (single : ∀ arguments, Statement.edit d arguments =
      ((singleFeature arguments).mapError LineFault.directive).map make)
    (same : Text.words arguments' = Text.words arguments) :
    Statement.edit d arguments' = Statement.edit d arguments ∨ ∃ fault fault',
      Statement.edit d arguments = .error fault ∧ Statement.edit d arguments' = .error fault' ∧
      fault'.kind = fault.kind := by
  rw [single, single]
  rcases singleFeature_congr same with h | ⟨name, name', h, h'⟩
  · exact .inl (by rw [h])
  · refine .inr ⟨.directive (.invalidFeatureName name), .directive (.invalidFeatureName name'),
      ?_, ?_, rfl⟩
    · rw [h]
      rfl
    · rw [h']
      rfl

/-- Arguments with the same words ask for the same edit, or are at fault in the same way. -/
theorem edit_congr (other : d ≠ .constraint) (same : Text.words arguments' = Text.words arguments) :
    Statement.edit d arguments' = Statement.edit d arguments ∨ ∃ fault fault',
      Statement.edit d arguments = .error fault ∧ Statement.edit d arguments' = .error fault' ∧
      fault'.kind = fault.kind := by
  cases d with
  | mandatory => exact edit_congr_of_single (fun _ => rfl) same
  | optional => exact edit_congr_of_single (fun _ => rfl) same
  | declared => exact edit_congr_of_single (fun _ => rfl) same
  | constraint => exact absurd rfl other
  | alternative => exact .inl (by rw [Statement.edit, Statement.edit, features_congr same])
  | excluded => exact .inl (by rw [Statement.edit, Statement.edit, features_congr same])

end Statement

/-! ## One step of two runs -/

/-- The line is refused for want of time. -/
def LineFault.Late (timeout : Duration) (fault : LineFault) : Prop :=
  ∃ failure, fault = .model (.engine failure) ∧ failure.Late timeout

namespace Compilation

/-- The drafts are abreast, and the phase is the same. -/
structure Abreast (n n' : Normalizer Id) (name : String) (c c' : Compilation Id) : Prop where
  draft : Draft.Abreast n n' name c.draft c'.draft
  phase : c'.phase = c.phase

variable {n n' : Normalizer Id} {name : String} {c c' : Compilation Id} {maxClauses : Nat}

/-- What a directive that the phase admits comes to, after its edit. -/
def concluded (c : Compilation Id) (d : Directive) :
    Except ModelFault Unit × Draft Id → Except LineFault Unit × Compilation Id
  | (.error fault, draft) => (.error (.model fault), { c with draft := draft })
  | (.ok (), draft) => (.ok (), ⟨draft, phaseAfter c.phase d⟩)

theorem run_perform {d : Directive} {arguments : List Char} {edit : Edit}
    (admitted : ¬ (c.phase = .exclusionLocked ∧ d ≠ .excluded))
    (hedit : Statement.edit d arguments = .ok edit) :
    (c.perform d arguments).run = c.concluded d (c.draft.apply edit).run := by
  unfold perform
  rw [if_neg admitted, hedit]
  dsimp only
  rw [Id.run_bind]
  obtain ⟨result, draft⟩ := (c.draft.apply edit).run
  cases result with
  | error => rfl
  | ok => rfl

/-- An edit is not late if its directive is not. -/
theorem not_late_of_concluded {d : Directive} {r : Except ModelFault Unit × Draft Id}
    {timeout : Duration}
    (prompt : ∀ fault, (c.concluded d r).1 = .error fault → ¬ fault.Late timeout)
    (failure : EngineFailure) (h : r.1 = .error (.engine failure)) : ¬ failure.Late timeout := by
  intro late
  obtain ⟨result, draft⟩ := r
  obtain rfl : result = .error (.engine failure) := h
  exact prompt (.model (.engine failure)) rfl ⟨failure, rfl, late⟩

theorem Abreast.perform {d : Directive} {arguments arguments' : List Char} {edit edit' : Edit}
    (h : Abreast n n' name c c') (builtin : n.engine.ActsBuiltinWithin maxClauses)
    (builtin' : n'.engine.ActsBuiltinWithin maxClauses)
    (hedit : Statement.edit d arguments = .ok edit)
    (hedit' : Statement.edit d arguments' = .ok edit') (same : edit.Respelled edit')
    (prompt : ∀ fault, (c.perform d arguments).run.1 = .error fault → ¬ fault.Late n.timeout)
    (prompt' : ∀ fault, (c'.perform d arguments').run.1 = .error fault → ¬ fault.Late n'.timeout) :
    Concurs LineFault.kind (Abreast n n' name) (c.perform d arguments).run
      (c'.perform d arguments').run := by
  by_cases locked : c.phase = .exclusionLocked ∧ d ≠ .excluded
  case pos =>
    have locked' : c'.phase = .exclusionLocked ∧ d ≠ .excluded := h.phase ▸ locked
    unfold Compilation.perform
    rw [if_pos locked, if_pos locked']
    exact .refused rfl
  case neg =>
    have admitted' : ¬ (c'.phase = .exclusionLocked ∧ d ≠ .excluded) := h.phase ▸ locked
    rw [run_perform locked hedit] at prompt ⊢
    rw [run_perform admitted' hedit'] at prompt' ⊢
    have both := h.draft.apply builtin builtin' same (not_late_of_concluded prompt)
      (not_late_of_concluded prompt')
    generalize (c.draft.apply edit).run = r at both ⊢
    generalize (c'.draft.apply edit').run = r' at both ⊢
    cases both with
    | accepted related => exact .accepted ⟨related, by rw [h.phase]⟩
    | refused kinds => exact .refused kinds

theorem Abreast.perform_of_error {d : Directive} {arguments arguments' : List Char}
    {fault fault' : LineFault} (h : Abreast n n' name c c')
    (hedit : Statement.edit d arguments = .error fault)
    (hedit' : Statement.edit d arguments' = .error fault') (kinds : fault'.kind = fault.kind) :
    Concurs LineFault.kind (Abreast n n' name) (c.perform d arguments).run
      (c'.perform d arguments').run := by
  unfold Compilation.perform
  rw [h.phase, hedit, hedit']
  split
  · exact .refused rfl
  · exact .refused kinds

/-- Lines that are the same statement come to the same. -/
theorem Abreast.feed {line line' : List Char} (h : Abreast n n' name c c')
    (builtin : n.engine.ActsBuiltinWithin maxClauses)
    (builtin' : n'.engine.ActsBuiltinWithin maxClauses)
    (same : (Statement.ofLine line).Respelled (Statement.ofLine line'))
    (prompt : ∀ fault, (c.feed line).run.1 = .error fault → ¬ fault.Late n.timeout)
    (prompt' : ∀ fault, (c'.feed line').run.1 = .error fault → ¬ fault.Late n'.timeout) :
    Concurs LineFault.kind (Abreast n n' name) (c.feed line).run (c'.feed line').run := by
  unfold Compilation.feed at prompt prompt' ⊢
  rw [← Statement.ofLine] at prompt prompt' ⊢
  rw [← Statement.ofLine]
  generalize Statement.ofLine line = s at same prompt ⊢
  generalize Statement.ofLine line' = s' at same prompt' ⊢
  cases same with
  | unknown keyword => exact .refused rfl
  | constraint trees => exact h.perform builtin builtin' rfl rfl (.constraint trees) prompt prompt'
  | @other d arguments arguments' other words =>
    rcases Statement.edit_congr other words with hsame | ⟨fault, fault', hedit, hedit', kinds⟩
    · cases hedit : Statement.edit d arguments with
      | error fault =>
        rw [hedit] at hsame
        exact h.perform_of_error hedit hsame rfl
      | ok edit =>
        rw [hedit] at hsame
        exact h.perform builtin builtin' hedit hsame (.same edit) prompt prompt'
    · exact h.perform_of_error hedit hedit' kinds

/-! ## Two runs -/

/-- Takes in lines that come with their numbers, until one is refused. -/
def feedNumbered (c : Compilation Id) :
    List (List Char × Nat) → Except SourceFault (Compilation Id)
  | [] => .ok c
  | (line, number) :: rest =>
    match (c.feed line).run with
    | (.error fault, _) => .error (.line number (String.ofList (Text.trim line)) fault)
    | (.ok (), next) => next.feedNumbered rest

theorem feedNumbered_of_error {line : List Char} {fault : LineFault} (number : Nat)
    (h : (c.feed line).run.1 = .error fault) (rest : List (List Char × Nat)) :
    c.feedNumbered ((line, number) :: rest) =
      .error (.line number (String.ofList (Text.trim line)) fault) := by
  rw [feedNumbered]
  generalize (c.feed line).run = r at h
  obtain ⟨result, next⟩ := r
  obtain rfl : result = .error fault := h
  rfl

theorem feedNumbered_of_ok {line : List Char} {next : Compilation Id} (number : Nat)
    (h : (c.feed line).run = (.ok (), next)) (rest : List (List Char × Nat)) :
    c.feedNumbered ((line, number) :: rest) = next.feedNumbered rest := by
  rw [feedNumbered, h]

/-- Idle lines can be left out of a run, if the others keep their numbers. -/
theorem feedLines_eq_feedNumbered (c : Compilation Id) (number : Nat) (lines : List (List Char)) :
    (c.feedLines number (lines.map .ok)).run =
      c.feedNumbered ((lines.zipIdx number).filter fun p => ¬ Statement.Idle p.1) := by
  induction lines generalizing c number with
  | nil => rfl
  | cons line lines ih =>
    rw [List.map_cons, feedLines, Id.run_bind, List.zipIdx_cons]
    by_cases idle : Statement.Idle line
    case pos =>
      have skipped : (c.feed line).run = (.ok (), c) :=
        feed_eq_ok_iff.mpr (.inl ⟨Statement.ofLine_eq_skipped_iff.mpr idle, rfl⟩)
      rw [skipped, List.filter_cons_of_neg (by simpa using idle)]
      exact ih c (number + 1)
    case neg =>
      rw [List.filter_cons_of_pos (by simpa using idle), feedNumbered]
      obtain ⟨result, next⟩ := (c.feed line).run
      cases result with
      | error => rfl
      | ok => exact ih next (number + 1)

end Compilation

/-- The source is refused for want of time. -/
def SourceFault.Late (timeout : Duration) (fault : SourceFault) : Prop :=
  ∃ number text cause, fault = .line number text cause ∧ cause.Late timeout

/-- The faults are about lines in the same place of the two lists, and of one kind. -/
def SourceFault.Corresponds (fault : SourceFault) (lines lines' : List (List Char × Nat))
    (fault' : SourceFault) : Prop :=
  ∃ (i : Nat) (line : List Char) (number : Nat) (line' : List Char) (number' : Nat)
      (cause cause' : LineFault),
    lines[i]? = some (line, number) ∧ lines'[i]? = some (line', number') ∧
    fault = .line number (String.ofList (Text.trim line)) cause ∧
    fault' = .line number' (String.ofList (Text.trim line')) cause' ∧ cause'.kind = cause.kind

theorem SourceFault.Corresponds.cons {lines lines' : List (List Char × Nat)}
    {fault fault' : SourceFault} (h : fault.Corresponds lines lines' fault')
    (p p' : List Char × Nat) : fault.Corresponds (p :: lines) (p' :: lines') fault' := by
  obtain ⟨i, rest⟩ := h
  exact ⟨i + 1, rest⟩

namespace Compilation

variable {n n' : Normalizer Id} {name : String} {c c' : Compilation Id} {maxClauses : Nat}

/-- Lines with the same gists are all accepted in both runs, or one of them is refused in both. -/
theorem Abreast.feedNumbered {lines lines' : List (List Char × Nat)} (h : Abreast n n' name c c')
    (builtin : n.engine.ActsBuiltinWithin maxClauses)
    (builtin' : n'.engine.ActsBuiltinWithin maxClauses)
    (busy : ∀ p ∈ lines, ¬ Statement.Idle p.1) (busy' : ∀ p ∈ lines', ¬ Statement.Idle p.1)
    (same : lines'.map (Statement.gist ·.1) = lines.map (Statement.gist ·.1))
    (prompt : ∀ fault, c.feedNumbered lines = .error fault → ¬ fault.Late n.timeout)
    (prompt' : ∀ fault, c'.feedNumbered lines' = .error fault → ¬ fault.Late n'.timeout) :
    (∃ final final', c.feedNumbered lines = .ok final ∧ c'.feedNumbered lines' = .ok final' ∧
      Abreast n n' name final final') ∨
    ∃ fault fault', c.feedNumbered lines = .error fault ∧ c'.feedNumbered lines' = .error fault' ∧
      fault.Corresponds lines lines' fault' := by
  induction lines generalizing lines' c c' with
  | nil =>
    obtain rfl := List.map_eq_nil_iff.mp same
    exact .inl ⟨c, c', rfl, rfl, h⟩
  | cons p lines ih =>
    cases lines' with
    | nil => cases same
    | cons p' lines' =>
      obtain ⟨line, number⟩ := p
      obtain ⟨line', number'⟩ := p'
      obtain ⟨gists, others⟩ := List.cons.inj same
      obtain ⟨hline, hlines⟩ := List.forall_mem_cons.mp busy
      obtain ⟨hline', hlines'⟩ := List.forall_mem_cons.mp busy'
      have both : Concurs LineFault.kind (Abreast n n' name) (c.feed line).run
          (c'.feed line').run := by
        refine h.feed builtin builtin' (Statement.respelled_of_gist hline hline' gists) ?_ ?_
        · intro fault hfault late
          have refused := feedNumbered_of_error number hfault lines
          exact prompt _ refused ⟨number, _, fault, rfl, late⟩
        · intro fault hfault late
          have refused := feedNumbered_of_error number' hfault lines'
          exact prompt' _ refused ⟨number', _, fault, rfl, late⟩
      generalize hr : (c.feed line).run = r at both
      generalize hr' : (c'.feed line').run = r' at both
      cases both with
      | accepted related =>
        rw [feedNumbered_of_ok number hr] at prompt ⊢
        rw [feedNumbered_of_ok number' hr'] at prompt' ⊢
        rcases ih related hlines hlines' others prompt prompt' with
          accepted | ⟨fault, fault', hfault, hfault', corresponds⟩
        · exact .inl accepted
        · exact .inr ⟨fault, fault', hfault, hfault', corresponds.cons _ _⟩
      | @refused fault fault' _ _ kinds =>
        refine .inr ⟨_, _, feedNumbered_of_error number (congrArg Prod.fst hr) lines,
          feedNumbered_of_error number' (congrArg Prod.fst hr') lines', ?_⟩
        exact ⟨0, line, number, line', number', fault, fault', rfl, rfl, rfl, rfl, kinds⟩

end Compilation

/-! ## Sources -/

namespace Source

/-- The lines of a source that say something, with their numbers. -/
def busyLines (source : String) : List (List Char × Nat) :=
  ((Text.lines source.toList).zipIdx 1).filter fun p => ¬ Statement.Idle p.1

/-- A source without its layout. -/
def gists (source : String) : List Gist :=
  (busyLines source).map (Statement.gist ·.1)

variable {n n' : Normalizer Id} {maxClauses : Nat} {name name' source source' : String}

theorem run_compileText (name : String) (n : Normalizer Id) (source : String) :
    (compileText name n source).run =
      ((Compilation.start name n).feedNumbered (busyLines source)).map fun c => c.draft.model := by
  rw [compileText, compileLines, Id.run_bind, Id.run_pure, Compilation.feedLines_eq_feedNumbered,
    busyLines]

theorem not_idle_of_mem_busyLines (source : String) :
    ∀ p ∈ busyLines source, ¬ Statement.Idle p.1 := by
  intro p hp
  simpa using List.of_mem_filter hp

/-- Sources that differ in their layout alone are both accepted, as the same model but for its name,
or they are refused at corresponding lines and for faults of one kind.  The engines are built-in,
with the same budget, and neither run ends for want of time. -/
theorem compileText_layout (builtin : n.engine.ActsBuiltinWithin maxClauses)
    (builtin' : n'.engine.ActsBuiltinWithin maxClauses) (same : gists source' = gists source)
    (prompt : ∀ fault, (compileText name n source).run = .error fault → ¬ fault.Late n.timeout)
    (prompt' : ∀ fault, (compileText name' n' source').run = .error fault →
      ¬ fault.Late n'.timeout) :
    (∃ model, (compileText name n source).run = .ok model ∧
      (compileText name' n' source').run = .ok { model with name := name' }) ∨
    ∃ fault fault', (compileText name n source).run = .error fault ∧
      (compileText name' n' source').run = .error fault' ∧
      fault.Corresponds (busyLines source) (busyLines source') fault' := by
  have start : Compilation.Abreast n n' name' (.start name n) (.start name' n') :=
    ⟨⟨rfl, rfl, ⟨n.tickets, rfl⟩, ⟨n'.tickets, rfl⟩⟩, rfl⟩
  rw [run_compileText] at prompt prompt' ⊢
  rw [run_compileText]
  rcases start.feedNumbered builtin builtin' (not_idle_of_mem_busyLines source)
    (not_idle_of_mem_busyLines source') same
    (fun fault hfault => prompt fault (by rw [hfault]; rfl))
    (fun fault hfault => prompt' fault (by rw [hfault]; rfl)) with
    ⟨final, final', hfinal, hfinal', abreast⟩ | ⟨fault, fault', hfault, hfault', corresponds⟩
  · refine .inl ⟨final.draft.model, by rw [hfinal]; rfl, ?_⟩
    rw [hfinal']
    exact congrArg Except.ok abreast.draft.model
  · exact .inr ⟨fault, fault', by rw [hfault]; rfl, by rw [hfault']; rfl, corresponds⟩

namespace Sample

/-- Four directives with no more layout than they need. -/
def tight : String := "mandatory A\noptional B\nconstraint !A|(B&~A)\nexcluded A B"

/-- The same directives among comments and empty lines, and with other kinds of white space. -/
def loose : String :=
  "%% a\r\n\r\n\u00a0mandatory\tA \r\noptional\u3000B\n  %%\n" ++
  "constraint\t~ A | ( B & !\u2009A )\r\n\n excluded  A\u00a0 B\n"

def tightModel : Model where
  name := "tight"
  features := [Cnf.Sample.a, Cnf.Sample.b]
  mandatory := [Cnf.Sample.a]
  optional := [Cnf.Sample.b]
  constraints := ["!A", "!A | !B"]

/-- The second directive has one word too many. -/
def tightRefused : String := "optional A\nmandatory A B"

def looseRefused : String := "\n  optional A\r\n%%\nmandatory\tA \u3000 B\n"

def tightNormalizer : Normalizer Id := .default { family := 0 }

def looseNormalizer : Normalizer Id := .default { family := 1, next := 3 }

end Sample

open ProductLine.Source.Sample in
theorem compileText_layout_sample :
    (compileText "tight" tightNormalizer tight).run = .ok tightModel ∧
    (compileText "loose" looseNormalizer loose).run = .ok { tightModel with name := "loose" } ∧
    ∃ fault fault', (compileText "tight" tightNormalizer tightRefused).run = .error fault ∧
      (compileText "loose" looseNormalizer looseRefused).run = .error fault' ∧
      fault.Corresponds (busyLines tightRefused) (busyLines looseRefused) fault' := by
  have builtin : tightNormalizer.engine.ActsBuiltinWithin Cnf.defaultMaxClauses :=
    Engine.actsBuiltinWithin_builtin _ _
  have builtin' : looseNormalizer.engine.ActsBuiltinWithin Cnf.defaultMaxClauses :=
    Engine.actsBuiltinWithin_builtin _ _
  have accepted : (compileText "tight" tightNormalizer tight).run = .ok tightModel := by cbv
  have accepted' : (compileText "loose" looseNormalizer loose).run =
      .ok { tightModel with name := "loose" } := by cbv
  have refused : (compileText "tight" tightNormalizer tightRefused).run = .error
      (.line 2 "mandatory A B" (.directive (.invalidFeatureName "A B"))) := by cbv
  have refused' : (compileText "loose" looseNormalizer looseRefused).run = .error
      (.line 4 "mandatory\tA \u3000 B" (.directive (.invalidFeatureName "A \u3000 B"))) := by cbv
  have other (number : Nat) (text : String) (fault : DirectiveFault) (timeout : Duration) :
      ¬ (SourceFault.line number text (.directive fault)).Late timeout := by
    rintro ⟨_, _, _, ⟨⟩, _, ⟨⟩, -⟩
  refine ⟨accepted, ?_, ?_⟩
  · have same : gists loose = gists tight := by decide +kernel
    have prompt : ∀ fault, (compileText "tight" tightNormalizer tight).run = .error fault →
        ¬ fault.Late tightNormalizer.timeout := by
      intro fault h
      cases accepted.symm.trans h
    have prompt' : ∀ fault, (compileText "loose" looseNormalizer loose).run = .error fault →
        ¬ fault.Late looseNormalizer.timeout := by
      intro fault h
      cases accepted'.symm.trans h
    rcases compileText_layout builtin builtin' same prompt prompt' with
      ⟨model, hmodel, hmodel'⟩ | ⟨fault, fault', hfault, -, -⟩
    · obtain rfl := Except.ok.inj (accepted.symm.trans hmodel)
      exact hmodel'
    · cases accepted.symm.trans hfault
  · have same : gists looseRefused = gists tightRefused := by decide +kernel
    have prompt : ∀ fault, (compileText "tight" tightNormalizer tightRefused).run = .error fault →
        ¬ fault.Late tightNormalizer.timeout := by
      intro fault h
      obtain rfl := Except.error.inj (refused.symm.trans h)
      exact other _ _ _ _
    have prompt' : ∀ fault, (compileText "loose" looseNormalizer looseRefused).run = .error fault →
        ¬ fault.Late looseNormalizer.timeout := by
      intro fault h
      obtain rfl := Except.error.inj (refused'.symm.trans h)
      exact other _ _ _ _
    rcases compileText_layout builtin builtin' same prompt prompt' with
      ⟨model, hmodel, -⟩ | corresponds
    · cases refused.symm.trans hmodel
    · exact corresponds

end Source

end ProductLine
