/- # Variability documents that can be read back

The document of a model lists the features of three classifications one after
the other, some of them several times.  What a reader is shown can be sorted
apart again: the options below `root` are the mandatory and the optional
features, and the others come in runs with one parent, each run being a group
(`ShownDocument.outline`).  It takes what is known of reachable models: a group
has children, two groups have different parents, and no parent is called `root`.

So the text determines the model as far as the document tells of it, whoever
writes the XML, and the features are the only thing that it does not tell.
-/
import ProductLine.Proofs.Draft.WellFormed
import ProductLine.Proofs.Export.Document

namespace ProductLine

namespace Export

/-! ## What the document of a model shows -/

/-- The option of a feature below the root. -/
def shownBelowRoot (optional : String) (f : Feature) : ShownOption :=
  ⟨f.name, "root", optional, []⟩

/-- The option of a group's child, which excludes the other children. -/
def shownChild (g : AlternativeGroup) (f : Feature) : ShownOption :=
  ⟨f.name, g.parent.name, "True", (g.children.filter (· ≠ f)).map Feature.name⟩

/-- The options of a group's children. -/
def shownGroup (g : AlternativeGroup) : List ShownOption :=
  g.children.map (shownChild g)

/-- What a reader of the model's document is shown. -/
def shownModel (m : Model) : ShownDocument where
  name := m.name
  options :=
    ⟨"root", "", "False", []⟩ :: (m.mandatory.map (shownBelowRoot "False") ++
      m.optional.map (shownBelowRoot "True") ++ m.alternatives.flatMap shownGroup)
  constraints := m.constraints

theorem readDocument?_variabilityDocument (m : Model) :
    readDocument? (variabilityDocument m).toXml = some (shownModel m) := by
  have below (optional : Bool) (fs : List Feature) :
      (fs.map (optionBelowRoot optional)).map ConfigurationOption.shown =
        fs.map (shownBelowRoot (if optional then "True" else "False")) := by
    rw [List.map_map]
    rfl
  have groups (g : AlternativeGroup) :
      (groupOptions g).map ConfigurationOption.shown = shownGroup g := by
    rw [groupOptions, List.map_map]
    rfl
  rw [readDocument?_toXml, variabilityDocument]
  simp only [List.map_cons, List.map_append, List.map_flatMap, below, groups]
  rfl

/-- A text that a document has been written as shows the document. -/
theorem readDocument?_of_write {write : Xml.Writer} (faithful : write.Faithful) {m : Model}
    {text : String} (written : write (variabilityDocument m).toXml = .ok text) {x : Xml}
    (plain : x.Plain) (same : write x = .ok text) : readDocument? x = some (shownModel m) := by
  rw [← readDocument?_variabilityDocument]
  exact readDocument?_eq faithful plain (plain_document _) (same.trans written.symm)

theorem generateBy_variability {write : Xml.Writer} {m : Model} {text : String}
    (written : write (variabilityDocument m).toXml = .ok text) :
    ExportFormat.variability.generateBy write m = .ok (text ++ "\n") := by
  rw [ExportFormat.generateBy, variabilityBy, written]
  rfl

/-- Models with one text have documents that are written alike. -/
theorem shownModel_eq {write : Xml.Writer} (faithful : write.Faithful) {m m' : Model}
    (same : ExportFormat.variability.generateBy write m' =
      ExportFormat.variability.generateBy write m) : shownModel m' = shownModel m := by
  obtain ⟨text, written⟩ := faithful.writes _ (plain_document (variabilityDocument m))
  obtain ⟨text', written'⟩ := faithful.writes _ (plain_document (variabilityDocument m'))
  rw [generateBy_variability written, generateBy_variability written'] at same
  obtain rfl : text' = text := (String.append_left_inj "\n").mp (Except.ok.inj same)
  have shown := readDocument?_of_write faithful written (plain_document _) written'
  rw [readDocument?_variabilityDocument] at shown
  exact Option.some.inj shown

/-! ## Sorting the options -/

/-- What the document of a model tells of it. -/
structure Outline where
  name : String
  mandatory : List Feature
  optional : List Feature
  alternatives : List AlternativeGroup
  constraints : List String
deriving DecidableEq

/-- All of a model but the list of its features. -/
def outline (m : Model) : Outline where
  name := m.name
  mandatory := m.mandatory
  optional := m.optional
  alternatives := m.alternatives
  constraints := m.constraints

/-- The features of the options, in their order. -/
def featuresOf (options : List ShownOption) : List Feature :=
  options.filterMap fun o => Feature.ofName? o.name

/-- The options below the synthetic root. -/
def belowRoot (optional : String) (options : List ShownOption) : List ShownOption :=
  options.filter fun o => o.parent = "root" ∧ o.optional = optional

/-- The group of a run of options below one parent. -/
def groupOf? (run : List ShownOption) : Option AlternativeGroup := do
  let first ← run.head?
  let parent ← Feature.ofName? first.parent
  return ⟨parent, featuresOf run⟩

/-- The options below features, in runs with one parent. -/
def groupRuns (options : List ShownOption) : List (List ShownOption) :=
  (options.filter fun o => o.parent ≠ "root").splitBy fun o o' => o.parent = o'.parent

/-- What is read off the document: its first option is the synthetic root, and the others are
sorted by their parents. -/
def ShownDocument.outline (d : ShownDocument) : Outline where
  name := d.name
  mandatory := featuresOf (belowRoot "False" d.options.tail)
  optional := featuresOf (belowRoot "True" d.options.tail)
  alternatives := (groupRuns d.options.tail).filterMap groupOf?
  constraints := d.constraints

/-- What can be read back one by one can be read back as a list. -/
theorem filterMap_map_eq_self {α β : Type} {write : α → β} {read? : β → Option α} {xs : List α}
    (back : ∀ x ∈ xs, read? (write x) = some x) : (xs.map write).filterMap read? = xs := by
  calc
    (xs.map write).filterMap read? = xs.filterMap some := by
      rw [List.filterMap_map]
      exact List.filterMap_congr back
    _ = xs := List.filterMap_some

theorem featuresOf_shownBelowRoot (optional : String) (fs : List Feature) :
    featuresOf (fs.map (shownBelowRoot optional)) = fs :=
  filterMap_map_eq_self fun f _ => f.ofName?_name

theorem featuresOf_shownGroup (g : AlternativeGroup) : featuresOf (shownGroup g) = g.children :=
  filterMap_map_eq_self fun f _ => f.ofName?_name

theorem parent_of_mem_shownGroup {g : AlternativeGroup} {o : ShownOption}
    (h : o ∈ shownGroup g) : o.parent = g.parent.name := by
  obtain ⟨f, -, rfl⟩ := List.mem_map.mp h
  rfl

theorem shownGroup_ne_nil {g : AlternativeGroup} (nonempty : g.children ≠ []) :
    shownGroup g ≠ [] :=
  List.map_eq_nil_iff.not.mpr nonempty

theorem groupOf?_shownGroup {g : AlternativeGroup} (nonempty : g.children ≠ []) :
    groupOf? (shownGroup g) = some g := by
  obtain ⟨o, os, options⟩ := List.exists_cons_of_ne_nil (shownGroup_ne_nil nonempty)
  have head : (shownGroup g).head? = some o := by rw [options, List.head?_cons]
  have parent : o.parent = g.parent.name :=
    parent_of_mem_shownGroup (options ▸ List.mem_cons_self)
  simp [groupOf?, head, parent, Feature.ofName?_name, featuresOf_shownGroup]

theorem belowRoot_append (optional : String) (os os' : List ShownOption) :
    belowRoot optional (os ++ os') = belowRoot optional os ++ belowRoot optional os' :=
  List.filter_append ..

/-- Mandatory and optional features are told apart. -/
theorem belowRoot_shownBelowRoot (optional optional' : String) (fs : List Feature) :
    belowRoot optional (fs.map (shownBelowRoot optional')) =
      if optional' = optional then fs.map (shownBelowRoot optional') else [] := by
  rw [belowRoot, List.filter_map]
  split
  case isTrue same =>
    rw [List.filter_eq_self.mpr]
    intro f _
    simp [shownBelowRoot, same]
  case isFalse other =>
    rw [List.filter_eq_nil_iff.mpr, List.map_nil]
    intro f _
    simp [shownBelowRoot, other]

section Groups

variable {groups : List AlternativeGroup}

/-- The options of different groups are different runs. -/
theorem splitBy_shownGroup (distinct : (groups.map AlternativeGroup.parent).Nodup)
    (nonempty : ∀ g ∈ groups, g.children ≠ []) :
    (groups.flatMap shownGroup).splitBy (fun o o' => o.parent = o'.parent) =
      groups.map shownGroup := by
  refine List.splitBy_flatten ?nonempty ?inside ?between
  case nonempty =>
    intro mem
    obtain ⟨g, hg, empty⟩ := List.mem_map.mp mem
    exact shownGroup_ne_nil (nonempty g hg) empty
  case inside =>
    refine List.forall_mem_map.mpr ?_
    intro g _
    have same : ∀ o ∈ shownGroup g, ∀ o' ∈ shownGroup g,
        decide (o.parent = o'.parent) = true := by
      intro o ho o' ho'
      rw [parent_of_mem_shownGroup ho, parent_of_mem_shownGroup ho']
      exact decide_eq_true rfl
    exact (List.pairwise_of_forall_mem_list same).isChain
  case between =>
    -- neighbours are enough, but in a model all parents are different
    refine List.Pairwise.isChain (List.pairwise_map.mpr ?_)
    refine (List.pairwise_map.mp distinct).imp_of_mem ?_
    intro g g' hg hg' other
    refine ⟨shownGroup_ne_nil (nonempty g hg), shownGroup_ne_nil (nonempty g' hg'), ?_⟩
    rw [parent_of_mem_shownGroup (List.getLast_mem _),
      parent_of_mem_shownGroup (List.head_mem _)]
    exact decide_eq_false fun same => other (Feature.ext_name same)

theorem parent_ne_root (apart : ∀ g ∈ groups, g.parent.name ≠ "root") :
    ∀ o ∈ groups.flatMap shownGroup, o.parent ≠ "root" := by
  intro o ho
  obtain ⟨g, hg, mem⟩ := List.mem_flatMap.mp ho
  rw [parent_of_mem_shownGroup mem]
  exact apart g hg

/-- Groups whose parents are not called as the root is are no features below the root. -/
theorem belowRoot_shownGroup (apart : ∀ g ∈ groups, g.parent.name ≠ "root") (optional : String) :
    belowRoot optional (groups.flatMap shownGroup) = [] := by
  refine List.filter_eq_nil_iff.mpr ?_
  intro o ho
  simp [parent_ne_root apart o ho]

theorem groupRuns_append {os : List ShownOption} (root : ∀ o ∈ os, o.parent = "root")
    (distinct : (groups.map AlternativeGroup.parent).Nodup)
    (nonempty : ∀ g ∈ groups, g.children ≠ [])
    (apart : ∀ g ∈ groups, g.parent.name ≠ "root") :
    groupRuns (os ++ groups.flatMap shownGroup) = groups.map shownGroup := by
  have none : os.filter (fun o => o.parent ≠ "root") = [] := by
    refine List.filter_eq_nil_iff.mpr ?_
    intro o ho
    simp [root o ho]
  have all : (groups.flatMap shownGroup).filter (fun o => o.parent ≠ "root") =
      groups.flatMap shownGroup := by
    refine List.filter_eq_self.mpr ?_
    intro o ho
    simp [parent_ne_root apart o ho]
  rw [groupRuns, List.filter_append, none, all, List.nil_append,
    splitBy_shownGroup distinct nonempty]

end Groups

/-- All that the document tells can be read off it again. -/
theorem outline_shownModel {m : Model}
    (distinct : (m.alternatives.map AlternativeGroup.parent).Nodup)
    (nonempty : ∀ g ∈ m.alternatives, g.children ≠ [])
    (apart : ∀ g ∈ m.alternatives, g.parent.name ≠ "root") :
    (shownModel m).outline = outline m := by
  have root : ∀ o ∈ m.mandatory.map (shownBelowRoot "False") ++
      m.optional.map (shownBelowRoot "True"), o.parent = "root" := by
    refine List.forall_mem_append.mpr ⟨?_, ?_⟩
    all_goals exact List.forall_mem_map.mpr fun f _ => rfl
  have below (optional : String) : belowRoot optional (shownModel m).options.tail =
      (if "False" = optional then m.mandatory.map (shownBelowRoot "False") else []) ++
        if "True" = optional then m.optional.map (shownBelowRoot "True") else [] := by
    rw [shownModel, List.tail_cons, belowRoot_append, belowRoot_append,
      belowRoot_shownGroup apart, belowRoot_shownBelowRoot, belowRoot_shownBelowRoot,
      List.append_nil]
  have mandatory : featuresOf (belowRoot "False" (shownModel m).options.tail) = m.mandatory := by
    rw [below]
    simp [featuresOf_shownBelowRoot]
  have optional : featuresOf (belowRoot "True" (shownModel m).options.tail) = m.optional := by
    rw [below]
    simp [featuresOf_shownBelowRoot]
  have runs : groupRuns (shownModel m).options.tail = m.alternatives.map shownGroup :=
    groupRuns_append root distinct nonempty apart
  have groups : (m.alternatives.map shownGroup).filterMap groupOf? = m.alternatives :=
    filterMap_map_eq_self fun g hg => groupOf?_shownGroup (nonempty g hg)
  rw [ShownDocument.outline, mandatory, optional, runs, groups]
  rfl

/-! ## Exclusions -/

/-- In the document, the option `x` below `parent` excludes `y`. -/
def ShownDocument.Excludes (d : ShownDocument) (parent x y : String) : Prop :=
  ∃ o ∈ d.options, o.parent = parent ∧ o.name = x ∧ y ∈ o.excluded

/-- The other children of a group are the children without the one. -/
theorem shownGroup_eq {g : AlternativeGroup} (distinct : g.children.Nodup) :
    shownGroup g = g.children.map fun f =>
      ⟨f.name, g.parent.name, "True", (g.children.erase f).map Feature.name⟩ := by
  refine List.map_congr_left ?_
  intro f _
  rw [shownChild, distinct.erase_eq_filter]
  simp only [ne_eq, decide_not]
  rfl

/-- An option excludes another one where a group has both as children. -/
theorem excludes_iff {m : Model} {parent x y : String} :
    (shownModel m).Excludes parent x y ↔
      ∃ g ∈ m.alternatives, g.parent.name = parent ∧
        ∃ f ∈ g.children, ∃ f' ∈ g.children, f ≠ f' ∧ f.name = x ∧ f'.name = y := by
  constructor
  · rintro ⟨o, ho, rfl, rfl, hy⟩
    rcases List.mem_cons.mp ho with rfl | ho
    · exact absurd hy List.not_mem_nil
    rcases List.mem_append.mp ho with ho | ho
    · have none : o.excluded = [] := by
        rcases List.mem_append.mp ho with ho | ho
        all_goals
          obtain ⟨f, -, rfl⟩ := List.mem_map.mp ho
          rfl
      exact absurd hy (none ▸ List.not_mem_nil)
    · obtain ⟨g, hg, ho⟩ := List.mem_flatMap.mp ho
      obtain ⟨f, hf, rfl⟩ := List.mem_map.mp ho
      obtain ⟨f', hf', rfl⟩ := List.mem_map.mp hy
      obtain ⟨hf', other⟩ := List.mem_filter.mp hf'
      exact ⟨g, hg, rfl, f, hf, f', hf', (of_decide_eq_true other).symm, rfl, rfl⟩
  · rintro ⟨g, hg, rfl, f, hf, f', hf', other, rfl, rfl⟩
    have listed : shownChild g f ∈ shownGroup g := List.mem_map_of_mem hf
    have listed := List.mem_flatMap.mpr ⟨g, hg, listed⟩
    refine ⟨_, List.mem_cons_of_mem _ (List.mem_append_right _ listed), rfl, rfl, ?_⟩
    exact List.mem_map.mpr ⟨f', List.mem_filter.mpr ⟨hf', decide_eq_true other.symm⟩, rfl⟩

theorem excludes_irrefl {m : Model} {parent x : String} :
    ¬ (shownModel m).Excludes parent x x := by
  intro excludes
  obtain ⟨g, -, -, f, -, f', -, other, rfl, same⟩ := excludes_iff.mp excludes
  exact other (Feature.ext_name same.symm)

theorem excludes_symm {m : Model} {parent x y : String}
    (excludes : (shownModel m).Excludes parent x y) :
    (shownModel m).Excludes parent y x := by
  obtain ⟨g, hg, parent, f, hf, f', hf', other, rfl, rfl⟩ := excludes_iff.mp excludes
  exact excludes_iff.mpr ⟨g, hg, parent, f', hf', f, hf, other.symm, rfl, rfl⟩

theorem excludes_children_iff {m : Model} {g : AlternativeGroup} {f f' : Feature}
    (hg : g ∈ m.alternatives) (hf : f ∈ g.children) (hf' : f' ∈ g.children) :
    (shownModel m).Excludes g.parent.name f.name f'.name ↔ f ≠ f' := by
  constructor
  · rintro excludes rfl
    exact excludes_irrefl excludes
  · intro other
    exact excludes_iff.mpr ⟨g, hg, rfl, f, hf, f', hf', other, rfl, rfl⟩

/-! ## Reachable models -/

theorem outline_of_wellFormed {d : Draft Id} (fits : d.WellFormed)
    (rootless : ∀ f ∈ d.model.features, f.name ≠ "root") :
    (shownModel d.model).outline = outline d.model := by
  refine outline_shownModel fits.parents_nodup ?nonempty ?apart
  case nonempty => exact fun g hg => (fits.groups g hg).nonempty
  case apart => exact fun g hg => rootless g.parent (fits.groups g hg).parent

/-- Whoever writes the XML: from its text, the variability document of a model in which no feature
is called `root` can be read, and shows the root, the mandatory features, the optional ones, and the
children of each group with their siblings excluded.  All but the list of features can be sorted out
of it again, so that models with the same text have all of that in common.  The engine does not
matter. -/
theorem variability_determines {write : Xml.Writer} (faithful : write.Faithful) (name : String)
    (n : Normalizer Id) (edits : List Edit) :
    let m := ((Draft.empty name n).applyAll edits).run.2.model
    (∀ f ∈ m.features, f.name ≠ "root") →
    ∃ (text : String) (d : ShownDocument),
      ExportFormat.variability.generateBy write m = .ok (text ++ "\n") ∧
      (∃ x : Xml, x.Plain ∧ write x = .ok text) ∧
      (∀ x : Xml, x.Plain → write x = .ok text → readDocument? x = some d) ∧
      d.name = m.name ∧
      d.options = ⟨"root", "", "False", []⟩ ::
        (m.mandatory.map (fun f => ⟨f.name, "root", "False", []⟩) ++
          m.optional.map (fun f => ⟨f.name, "root", "True", []⟩) ++
          m.alternatives.flatMap fun g => g.children.map fun f =>
            ⟨f.name, g.parent.name, "True", (g.children.erase f).map Feature.name⟩) ∧
      d.constraints = m.constraints ∧
      (∀ parent x, ¬ d.Excludes parent x x) ∧
      (∀ parent x y, d.Excludes parent x y → d.Excludes parent y x) ∧
      (∀ g ∈ m.alternatives, ∀ f ∈ g.children, ∀ f' ∈ g.children,
        d.Excludes g.parent.name f.name f'.name ↔ f ≠ f') ∧
      d.outline = outline m ∧
      ∀ (name' : String) (n' : Normalizer Id) (edits' : List Edit),
        let m' := ((Draft.empty name' n').applyAll edits').run.2.model
        (∀ f ∈ m'.features, f.name ≠ "root") →
        ExportFormat.variability.generateBy write m' =
          ExportFormat.variability.generateBy write m →
        m'.name = m.name ∧ m'.mandatory = m.mandatory ∧ m'.optional = m.optional ∧
          m'.alternatives = m.alternatives ∧ m'.constraints = m.constraints := by
  intro m rootless
  have fits := Draft.wellFormed_run name n edits
  have plain := plain_document (variabilityDocument m)
  obtain ⟨text, written⟩ := faithful.writes _ plain
  refine ⟨text, shownModel m, generateBy_variability written, ⟨_, plain, written⟩, ?reads, rfl,
    ?options, rfl, ?irreflexive, ?symmetric, ?complete, ?outline, ?models⟩
  case reads => exact fun x plain same => readDocument?_of_write faithful written plain same
  case options =>
    have groups := List.flatMap_congr fun g hg => shownGroup_eq (fits.groups g hg).distinct
    exact congrArg _ (congrArg _ groups)
  case irreflexive => exact fun parent x => excludes_irrefl
  case symmetric => exact fun parent x y => excludes_symm
  case complete => exact fun g hg f hf f' hf' => excludes_children_iff hg hf hf'
  case outline => exact outline_of_wellFormed fits rootless
  case models =>
    intro name' n' edits' m' rootless' same
    have fits' := Draft.wellFormed_run name' n' edits'
    have outlines : outline m' = outline m := by
      rw [← outline_of_wellFormed fits' rootless', shownModel_eq faithful same,
        outline_of_wellFormed fits rootless]
    obtain ⟨names, mandatory, optional, alternatives, constraints⟩ := Outline.mk.inj outlines
    exact ⟨names, mandatory, optional, alternatives, constraints⟩

end Export

namespace Sample

open Cnf.Sample Export

/-- Two groups, each with a child that is the other one's parent. -/
def overlapping : List Edit :=
  [.mandatory a, .optional b, .declared c, .alternative a [b, c], .alternative b [c, a],
    .excluded [b]]

def overlappingModel : Model where
  name := "m"
  features := [a, b, c]
  mandatory := [a]
  optional := [b]
  alternatives := [⟨a, [b, c]⟩, ⟨b, [c, a]⟩]
  constraints := ["!B | A | C"]

def overlappingOptions : List ShownOption :=
  [⟨"root", "", "False", []⟩, ⟨"A", "root", "False", []⟩, ⟨"B", "root", "True", []⟩,
    ⟨"B", "A", "True", ["C"]⟩, ⟨"C", "A", "True", ["B"]⟩,
    ⟨"C", "B", "True", ["A"]⟩, ⟨"A", "B", "True", ["C"]⟩]

def overlappingNormalizer : Normalizer Id := .default { family := 0 }

/-- One more feature, which plays no role. -/
def spare : Feature := ⟨"D", by decide⟩

def spareModel : Model :=
  { overlappingModel with features := [a, b, c, spare] }

end Sample

open Sample Cnf.Sample Export in
theorem Export.variability_determines_overlapping :
    Xml.Writer.Faithful Xml.lines ∧
      ((Draft.empty "m" overlappingNormalizer).applyAll overlapping).run.2.model =
        overlappingModel ∧
      (∀ f ∈ overlappingModel.features, f.name ≠ "root") ∧
      (∀ f ∈ spareModel.features, f.name ≠ "root") ∧
      ExportFormat.variability.generateBy Xml.lines spareModel =
        ExportFormat.variability.generateBy Xml.lines overlappingModel ∧
      ∃ (text : String) (d : ShownDocument),
        ExportFormat.variability.generate overlappingModel = text ++ "\n" ∧
        (∀ x : Xml, x.Plain → Xml.lines x = .ok text → readDocument? x = some d) ∧
        d.options = overlappingOptions ∧ ¬ d.Excludes "A" "B" "B" ∧ d.Excludes "B" "A" "C" ∧
        d.outline = outline overlappingModel ∧
        spareModel.alternatives = overlappingModel.alternatives := by
  let n := overlappingNormalizer
  have model : ((Draft.empty "m" n).applyAll overlapping).run.2.model = overlappingModel := by
    cbv
  have model' : ((Draft.empty "m" n).applyAll (overlapping ++ [.declared spare])).run.2.model =
      spareModel := by
    cbv
  have rootless : ∀ f ∈ overlappingModel.features, f.name ≠ "root" := by decide
  have rootless' : ∀ f ∈ spareModel.features, f.name ≠ "root" := by decide
  have same : ExportFormat.variability.generateBy Xml.lines spareModel =
      ExportFormat.variability.generateBy Xml.lines overlappingModel := rfl
  have determines := variability_determines Xml.faithful_lines "m" n overlapping
  simp only [model] at determines
  obtain ⟨text, d, generated, -, reads, -, options, -, irreflexive, -, complete, outline, models⟩ :=
    determines rootless
  have agree := models "m" n (overlapping ++ [.declared spare])
  simp only [model'] at agree
  refine ⟨Xml.faithful_lines, model, rootless, rootless', same, text, d, ?_, reads, ?_,
    irreflexive "A" "B", ?_, outline, ?_⟩
  · rw [ExportFormat.generateBy_lines] at generated
    exact Except.ok.inj generated
  · rw [options]
    cbv
  · have g : (⟨b, [c, a]⟩ : AlternativeGroup) ∈ overlappingModel.alternatives := by decide
    exact (complete _ g a (by decide) c (by decide)).mpr (by decide)
  · exact (agree rootless' same).2.2.2.1

open Cnf.Sample Export in
/-- Below a feature that is called as the synthetic root is, a group of one child looks like an
optional feature. -/
example :
    let root : Feature := ⟨"root", by decide⟩
    let start := Draft.empty "m" (.default { family := 0 } : Normalizer Id)
    let optional := (start.applyAll [.declared root, .optional a]).run.2.model
    let grouped := (start.applyAll [.declared root, .declared a, .alternative root [a]]).run.2.model
    variabilityDocument optional = variabilityDocument grouped ∧
      optional.optional = [a] ∧ grouped.optional = [] := by
  cbv

end ProductLine
