/- # Projects — what compiling one does to the files

Files are a tree here, and an operation on it is done in full or not at all.
Then the two parts of a run are told apart by what they do to the tree.

| part | what it does |
| :-- | :-- |
| `check` | what engines do that are asked on the way, and nothing else |
| `writeOutputs` | writes the texts of the first outputs, up to the first that fails |

So a source that is refused leaves a tree to which no output has been written.
Of a run that stops at an output it is known what the earlier ones have come
to; of the one at which it stops there may be directories over its path, and
nothing else, since a file is created with its text or not at all.

The outputs may name one file more than once, and may name the source, which has
been read to its end by then.  No case is made of either.

What is asked of a tree is that its numbers are those of stored files, and of an
engine, which may be a program that works on the same files, that it leaves such
a tree behind.  Every tree that is built up from `FileTree.fresh` file by file is
one (`FileTree.sound_addFile`).
-/
import Mathlib.Data.List.Basic
import ProductLine.Project
import ProductLine.Proofs.Files.Written
import ProductLine.Proofs.Source.Effects

namespace ProductLine.Project

variable {α β : Type} {t t' : FileTree} {path text : String}

/-- The paths of outputs, each with the text that is to be written there. -/
def texts (model : Model) (outputs : List (ExportFormat × String)) : List (String × String) :=
  outputs.map fun output => (output.2, output.1.generate model)

/-! ## Actions on a tree -/

/-- What an action comes to on a tree, and the tree after it. -/
def runOn (x : ExceptT ProjectFault (StateM FileTree) α) (t : FileTree) :
    Except ProjectFault α × FileTree :=
  x.run.run t

section Run

variable {x : ExceptT ProjectFault (StateM FileTree) α}
  {f : α → ExceptT ProjectFault (StateM FileTree) β}

theorem runOn_bind_of_ok {a : α} (h : runOn x t = (.ok a, t')) :
    runOn (x >>= f) t = runOn (f a) t' := by
  change (x.run.run t) = _ at h
  change ((x >>= f).run.run t) = _
  rw [ExceptT.run_bind, StateT.run_bind, h]
  rfl

theorem runOn_bind_of_error {fault : ProjectFault} (h : runOn x t = (.error fault, t')) :
    runOn (x >>= f) t = (.error fault, t') := by
  change (x.run.run t) = _ at h
  change ((x >>= f).run.run t) = _
  rw [ExceptT.run_bind, StateT.run_bind, h]
  rfl

theorem runOn_mapError {ε : Type} (report : ε → ProjectFault)
    (operation : StateM FileTree (Except ε α)) (t : FileTree) :
    runOn (ExceptT.mk (Except.mapError report <$> operation)) t =
      ((operation.run t).1.mapError report, (operation.run t).2) :=
  rfl

end Run

section Attempt

variable (report : FileFault → ProjectFault) (t : FileTree)

theorem runOn_openFile (path : String) :
    runOn (attempt report (FileStore.openFile path)) t = ((t.openFile path).mapError report, t) :=
  rfl

theorem runOn_createDirectories (r : Route) :
    runOn (attempt report (FileStore.createDirectories r)) t =
      ((t.createDirectories r).1.mapError report, (t.createDirectories r).2) :=
  rfl

theorem runOn_writeFile (path text : String) :
    runOn (attempt report (FileStore.writeFile path text)) t =
      match t.writeFile path (FileTree.bytesOf (Text.encode text.toList)) with
      | .error fault => (.error (report fault), t)
      | .ok t' => (.ok (), t') := by
  unfold attempt
  rw [runOn_mapError]
  change ((FileTree.writeFileM path text t).1.mapError report,
    (FileTree.writeFileM path text t).2) = _
  unfold FileTree.writeFileM
  cases t.writeFile path (FileTree.bytesOf (Text.encode text.toList)) <;> rfl

end Attempt

/-! ## Outputs -/

/-- The text cannot be written: there is no creating the directory of its path, or no writing to the
path in the tree `t'`, in which that directory has been created. -/
def Refuses (path text : String) (fault : FileFault) (t t' : FileTree) : Prop :=
  (∃ r, (Route.ofText path).parent? = some r ∧ (t.createDirectories r).1 = .error fault) ∨
    t'.writeFile path (FileTree.bytesOf (Text.encode text.toList)) = .error fault

/-- What writing a text to a path may come to: it is written, or it is refused, and then there may
be directories over the path. -/
inductive OutputOutcome (path text : String) (t : FileTree) :
    Except ProjectFault Unit × FileTree → Prop where
  | written {t' : FileTree} : t.Wrote [(path, text)] t' → OutputOutcome path text t (.ok (), t')
  | refused {fault : FileFault} {t' : FileTree} : Refuses path text fault t t' →
      t.AddsDirectories path t' → OutputOutcome path text t (.error (.writing path fault), t')

theorem outcome_writeFile (sound : t.Sound) (above : t.AddsDirectories path t') (text : String) :
    OutputOutcome path text t
      (runOn (attempt (.writing path) (FileStore.writeFile path text)) t') := by
  rw [runOn_writeFile]
  cases hwrite : t'.writeFile path (FileTree.bytesOf (Text.encode text.toList)) with
  | error fault => exact .refused (.inr hwrite) above
  | ok t'' =>
    obtain ⟨bare, writes⟩ := FileTree.writes_of_writeFile hwrite
    exact .written (.single above bare writes sound)

theorem outcome_writeOutput (sound : t.Sound) (path text : String) :
    OutputOutcome path text t (runOn (writeOutput path text) t) := by
  unfold writeOutput
  cases parent : (Route.ofText path).parent? with
  | none => exact outcome_writeFile sound (.refl path t) text
  | some directory =>
    dsimp only
    split
    · have above := FileTree.addsDirectories_createDirectories (t := t) parent
      have run := runOn_createDirectories (.writing path) t directory
      cases created : t.createDirectories directory with
      | mk result t' =>
        rw [created] at run above
        cases result with
        | error fault =>
          rw [runOn_bind_of_error run]
          exact .refused (.inl ⟨directory, parent, by rw [created]⟩) above
        | ok =>
          rw [runOn_bind_of_ok run]
          exact outcome_writeFile sound above text
    · exact outcome_writeFile sound (.refl path t) text

/-- The outputs before one of them have been written, and that one is refused.  It is named by the
fault, and those after it have not been looked at. -/
def StopsAt (model : Model) (outputs : List (ExportFormat × String)) (fault : ProjectFault)
    (t t' : FileTree) : Prop :=
  ∃ done format path reason rest between, outputs = done ++ (format, path) :: rest ∧
    fault = .writing path reason ∧ t.Wrote (texts model done) between ∧
    Refuses path (format.generate model) reason between t' ∧ between.AddsDirectories path t'

/-- What writing outputs may come to: all are written, or those before the first that fails. -/
inductive OutputsOutcome (model : Model) (outputs : List (ExportFormat × String)) (t : FileTree) :
    Except ProjectFault Unit × FileTree → Prop where
  | written {t' : FileTree} : t.Wrote (texts model outputs) t' →
      OutputsOutcome model outputs t (.ok (), t')
  | stopped {fault : ProjectFault} {t' : FileTree} : StopsAt model outputs fault t t' →
      OutputsOutcome model outputs t (.error fault, t')

theorem outcome_writeOutputs (sound : t.Sound) (model : Model)
    (outputs : List (ExportFormat × String)) :
    OutputsOutcome model outputs t (runOn (writeOutputs model outputs) t) := by
  -- Each output finds the tree as the outputs before it have left it.
  induction outputs generalizing t with
  | nil => exact .written (.nil sound)
  | cons output outputs ih =>
    obtain ⟨format, path⟩ := output
    have first := outcome_writeOutput sound path (format.generate model)
    unfold writeOutputs
    cases run : runOn (writeOutput path (format.generate model)) t with
    | mk result t' =>
      rw [run] at first
      cases first with
      | refused refuses above =>
        rw [runOn_bind_of_error run]
        exact .stopped ⟨[], format, path, _, outputs, t, rfl, rfl, .nil sound, refuses, above⟩
      | written wrote =>
        rw [runOn_bind_of_ok run]
        have others := ih wrote.sound
        generalize runOn (writeOutputs model outputs) t' = final at others ⊢
        cases others with
        | written wrote' => exact .written (wrote.append wrote')
        | stopped stops =>
          obtain ⟨done, format', path', reason, rest, between, heq, named, wrote', stop⟩ := stops
          have longer : (format, path) :: outputs =
              (format, path) :: done ++ (format', path') :: rest := by rw [heq]; rfl
          exact .stopped ⟨_, _, _, _, _, between, longer, named, wrote.append wrote', stop⟩

/-! ## Reading the source, then writing the outputs -/

theorem moves_readBlock (engine : Engine (StateM FileTree)) (opened : Opened) (offset : Nat) :
    engine.Moves (FileTree.readBlockM opened offset) fun _ => True := by
  intro t
  cases opened <;> exact ⟨.refl, trivial⟩

theorem leads_check (p : Project) (n : Normalizer (StateM FileTree)) (t : FileTree) :
    n.engine.Leads t (runOn (p.check n) t).2 := by
  have run := runOn_openFile (.opening p.input) t p.input
  unfold check
  cases opens : t.openFile p.input with
  | error fault =>
    rw [opens] at run
    rw [runOn_bind_of_error run]
    exact .refl
  | ok opened =>
    rw [opens] at run
    rw [runOn_bind_of_ok run, runOn_mapError]
    exact (Source.moves_compileStream p.name n (moves_readBlock n.engine opened) t).1

section Compile

variable {p : Project} {n : Normalizer (StateM FileTree)}

theorem runOn_compile_of_error {fault : ProjectFault}
    (h : runOn (p.check n) t = (.error fault, t')) : runOn (p.compile n) t = (.error fault, t') :=
  runOn_bind_of_error h

theorem runOn_compile_of_ok {model : Model} (h : runOn (p.check n) t = (.ok model, t')) :
    runOn (p.compile n) t = ((runOn (writeOutputs model p.outputs) t').1.map fun _ => model,
      (runOn (writeOutputs model p.outputs) t').2) := by
  refine (runOn_bind_of_ok h).trans ?_
  cases run : runOn (writeOutputs model p.outputs) t' with
  | mk result t'' =>
    cases result with
    | error fault => exact runOn_bind_of_error run
    | ok => exact runOn_bind_of_ok run

/-- A run that gets through has checked the source and written all outputs. -/
theorem wrote_of_compile_eq_ok {checked : Except ProjectFault Model} {model : Model}
    (hcheck : runOn (p.check n) t = (checked, t')) (sound : t'.Sound) {final : FileTree}
    (h : runOn (p.compile n) t = (.ok model, final)) :
    checked = .ok model ∧ t'.Wrote (texts model p.outputs) final := by
  cases checked with
  | error fault =>
    rw [runOn_compile_of_error hcheck] at h
    cases h
  | ok checked =>
    rw [runOn_compile_of_ok hcheck] at h
    have outcome := outcome_writeOutputs sound checked p.outputs
    generalize runOn (writeOutputs checked p.outputs) t' = result at h outcome
    cases outcome with
    | written wrote =>
      obtain ⟨⟨⟩, rfl⟩ := Prod.mk.inj h
      exact ⟨rfl, wrote⟩
    | stopped => cases (Prod.mk.inj h).1

/-- A run that stops has stopped at the source, or at an output. -/
theorem stopped_of_compile_eq_error {checked : Except ProjectFault Model} {fault : ProjectFault}
    (hcheck : runOn (p.check n) t = (checked, t')) (sound : t'.Sound) {final : FileTree}
    (h : runOn (p.compile n) t = (.error fault, final)) :
    checked = .error fault ∨
      ∃ model, checked = .ok model ∧ StopsAt model p.outputs fault t' final := by
  cases checked with
  | error fault =>
    rw [runOn_compile_of_error hcheck] at h
    exact .inl (congrArg Except.error (Except.error.inj (Prod.mk.inj h).1))
  | ok checked =>
    rw [runOn_compile_of_ok hcheck] at h
    have outcome := outcome_writeOutputs sound checked p.outputs
    generalize runOn (writeOutputs checked p.outputs) t' = result at h outcome
    cases outcome with
    | written wrote => cases (Prod.mk.inj h).1
    | stopped stops =>
      obtain ⟨⟨⟩, rfl⟩ := Prod.mk.inj h
      exact .inr ⟨checked, rfl, stops⟩

end Compile

/-- What compiling a project does to a tree, which checking it leaves as `checked`. -/
structure Effects (p : Project) (n : Normalizer (StateM FileTree)) (t : FileTree)
    (checked : Except ProjectFault Model × FileTree) : Prop where
  /-- Checking has done what engines do. -/
  leads : n.engine.Leads t checked.2
  unchanged : (∀ request s, ((n.engine.reply request).run s).2 = s) → checked.2 = t
  refused : ∀ fault, checked.1 = .error fault → runOn (p.compile n) t = (.error fault, checked.2)
  /-- The model is that of the source, and every output has been written. -/
  compiled : ∀ model t', runOn (p.compile n) t = (.ok model, t') →
    checked.1 = .ok model ∧ checked.2.Wrote (texts model p.outputs) t'
  /-- The fault is that of the source, or it names the first output that failed. -/
  stopped : ∀ fault t', runOn (p.compile n) t = (.error fault, t') → checked.1 = .error fault ∨
    ∃ model, checked.1 = .ok model ∧ StopsAt model p.outputs fault checked.2 t'

/-- Compiling writes nothing before the source has been read to its end without a fault.  Then it
writes the texts of the model, one after the other, until one cannot be written. -/
theorem effects_compile (p : Project) (n : Normalizer (StateM FileTree)) {t : FileTree}
    (sound : t.Sound)
    (keeps : ∀ request s, FileTree.Sound s → ((n.engine.reply request).run s).2.Sound) :
    p.Effects n t (runOn (p.check n) t) := by
  have leads := p.leads_check n t
  cases hcheck : runOn (p.check n) t with
  | mk checked t₁ =>
    rw [hcheck] at leads
    have sound₁ : t₁.Sound := leads.keeps keeps sound
    refine ⟨leads, ?unchanged, ?refused, ?compiled, ?stopped⟩
    case unchanged =>
      intro silent
      refine leads.keeps (p := fun s => s = t) (fun request s same => ?_) rfl
      rw [silent request s, same]
    case refused =>
      rintro fault rfl
      exact runOn_compile_of_error hcheck
    case compiled =>
      intro model final h
      exact wrote_of_compile_eq_ok hcheck sound₁ h
    case stopped =>
      intro fault final h
      exact stopped_of_compile_eq_error hcheck sound₁ h

namespace Sample

/-- Both outputs go to the file that is the input. -/
def project : Project where
  name := "car"
  input := "car.fm"
  outputs := [(.header, "car.fm"), (.featureList, "car.fm")]

def normalizer : Normalizer (StateM FileTree) := .default { family := 7 }

def tree : FileTree :=
  FileTree.fresh.create (FileTree.scratch ++ ["car.fm"])
    { content := FileTree.bytesOf (Text.encode "mandatory Engine\n".toList) }

def model : Model where
  name := "car"
  features := [⟨"Engine", by decide⟩]
  mandatory := [⟨"Engine", by decide⟩]

end Sample

theorem effects_compile_over_input :
    Sample.tree.Sound ∧
      (∀ request s, FileTree.Sound s →
        ((Sample.normalizer.engine.reply request).run s).2.Sound) ∧
      Sample.project.Effects Sample.normalizer Sample.tree
        (runOn (Sample.project.check Sample.normalizer) Sample.tree) ∧
      (runOn (Sample.project.compile Sample.normalizer) Sample.tree).1 = .ok Sample.model := by
  have sound : Sample.tree.Sound := FileTree.sound_create FileTree.sound_fresh (by decide) _
  have keeps : ∀ request s, FileTree.Sound s →
      ((Sample.normalizer.engine.reply request).run s).2.Sound := fun _ _ h => h
  exact ⟨sound, keeps, effects_compile _ _ sound keeps, by decide +kernel⟩

end ProductLine.Project
