/- # Well-formed drafts — what all edits together guarantee

A draft keeps the same facts in several places: the features as a list and as
an index, some of them again as mandatory or optional, the parents and the
children of the groups.  `WellFormed` says how these fit together.  It holds
of the empty model, and every outcome of an edit keeps it: a refused edit
changes nothing, and an accepted one has been checked against the index,
which by the invariant is the list.

The texts of the constraints are another matter, since an engine is free to
answer anything; they are in `ProductLine.Proofs.Draft.Stored`.
-/
import ProductLine.Proofs.Draft.Outcome

namespace ProductLine

/-- The group is one that can be declared over the features. -/
structure AlternativeGroup.Over (features : List Feature) (g : AlternativeGroup) : Prop where
  parent : g.parent ∈ features
  nonempty : g.children ≠ []
  distinct : g.children.Nodup
  declared : ∀ f ∈ g.children, f ∈ features

theorem AlternativeGroup.Over.mono {features features' : List Feature} {g : AlternativeGroup}
    (h : g.Over features) (sub : features ⊆ features') : g.Over features' where
  parent := sub h.parent
  nonempty := h.nonempty
  distinct := h.distinct
  declared f hf := sub (h.declared f hf)

namespace Model

/-- No group has the parent if the look-up finds none. -/
theorem alternativeOf?_eq_none_iff {m : Model} {parent : Feature} :
    m.alternativeOf? parent = none ↔ parent ∉ m.alternatives.map AlternativeGroup.parent := by
  rw [alternativeOf?, Option.map_eq_none_iff, List.find?_eq_none]
  simp

/-- If no parent has two groups, the look-up finds exactly the groups there are. -/
theorem alternativeOf?_eq_some_iff {m : Model} {parent : Feature} {children : List Feature}
    (distinct : (m.alternatives.map AlternativeGroup.parent).Nodup) :
    m.alternativeOf? parent = some children ↔ ⟨parent, children⟩ ∈ m.alternatives := by
  rw [alternativeOf?, Option.map_eq_some_iff]
  constructor
  · rintro ⟨g, hfind, rfl⟩
    have hparent : g.parent = parent := by simpa using List.find?_some hfind
    subst hparent
    exact List.mem_of_find?_eq_some hfind
  · intro hmem
    cases hfind : m.alternatives.find? fun g => g.parent = parent with
    | none => simpa using List.find?_eq_none.mp hfind _ hmem
    | some g =>
      have hparent : g.parent = parent := by simpa using List.find?_some hfind
      have same : g = ⟨parent, children⟩ :=
        List.inj_on_of_nodup_map distinct (List.mem_of_find?_eq_some hfind) hmem hparent
      exact ⟨g, rfl, by rw [same]⟩

end Model

namespace Draft

variable {m : Type → Type}

/-- The lists of the model and the index fit together. -/
structure WellFormed (d : Draft m) : Prop where
  features_nodup : d.model.features.Nodup
  mem_index_iff : ∀ f, f ∈ d.index ↔ f ∈ d.model.features
  mandatory_sublist : d.model.mandatory.Sublist d.model.features
  optional_sublist : d.model.optional.Sublist d.model.features
  disjoint : ∀ f ∈ d.model.mandatory, f ∉ d.model.optional
  parents_nodup : (d.model.alternatives.map AlternativeGroup.parent).Nodup
  groups : ∀ g ∈ d.model.alternatives, g.Over d.model.features

/-! ## At the start, and after each edit -/

theorem wellFormed_empty (name : String) (n : Normalizer m) : (empty name n).WellFormed where
  features_nodup := List.nodup_nil
  mem_index_iff f := iff_of_false (FeatureSet.notMem_empty f) List.not_mem_nil
  mandatory_sublist := List.Sublist.refl []
  optional_sublist := List.Sublist.refl []
  disjoint := by simp [empty]
  parents_nodup := List.nodup_nil
  groups := by simp [empty]

variable {d d' : Draft m} {f : Feature}

/-- A new feature may be put into one of the two classes. -/
theorem WellFormed.declare (h : d.WellFormed) (fresh : f ∉ d.index)
    (features : d'.model.features = d.model.features ++ [f])
    (index : d'.index = d.index.insert f)
    (alternatives : d'.model.alternatives = d.model.alternatives)
    (classes : (d'.model.mandatory = d.model.mandatory ∨
        d'.model.mandatory = d.model.mandatory ++ [f]) ∧ d'.model.optional = d.model.optional ∨
      d'.model.mandatory = d.model.mandatory ∧ d'.model.optional = d.model.optional ++ [f]) :
    d'.WellFormed := by
  have fresh : f ∉ d.model.features := fun hf => fresh ((h.mem_index_iff f).mpr hf)
  have notMandatory : f ∉ d.model.mandatory := fun hf => fresh (h.mandatory_sublist.subset hf)
  have notOptional : f ∉ d.model.optional := fun hf => fresh (h.optional_sublist.subset hf)
  have longer : d.model.features.Sublist (d.model.features ++ [f]) := List.sublist_append_left _ _
  constructor
  case features_nodup =>
    rw [features, ← List.concat_eq_append]
    exact h.features_nodup.concat fresh
  case mem_index_iff =>
    intro g
    rw [index, features, FeatureSet.mem_insert_iff, h.mem_index_iff, List.mem_append,
      List.mem_singleton, or_comm]
  case mandatory_sublist =>
    rw [features]
    rcases classes with ⟨same | more, -⟩ | ⟨same, -⟩
    · exact same ▸ h.mandatory_sublist.trans longer
    · exact more ▸ h.mandatory_sublist.append_right [f]
    · exact same ▸ h.mandatory_sublist.trans longer
  case optional_sublist =>
    rw [features]
    rcases classes with ⟨-, same⟩ | ⟨-, more⟩
    · exact same ▸ h.optional_sublist.trans longer
    · exact more ▸ h.optional_sublist.append_right [f]
  case disjoint =>
    intro g
    rcases classes with ⟨same | more, same'⟩ | ⟨same, more⟩
    · rw [same, same']
      exact h.disjoint g
    · rw [more, same', List.mem_append, List.mem_singleton]
      rintro (hg | rfl)
      · exact h.disjoint g hg
      · exact notOptional
    · rw [same, more, List.mem_append, List.mem_singleton, not_or]
      exact fun hg => ⟨h.disjoint g hg, fun heq => notMandatory (heq ▸ hg)⟩
  case parents_nodup =>
    rw [alternatives]
    exact h.parents_nodup
  case groups =>
    rw [alternatives, features]
    exact fun g hg => (h.groups g hg).mono longer.subset

/-- A new group needs a parent that has none, and children that are all there. -/
theorem WellFormed.group {parent : Feature} {children : List Feature} (h : d.WellFormed)
    (admitted : (Edit.alternative parent children).Admitted d)
    (model : d'.model = { d.model with
      alternatives := d.model.alternatives ++ [⟨parent, children⟩] })
    (index : d'.index = d.index) : d'.WellFormed := by
  obtain ⟨declared, free, nonempty, distinct, all⟩ := admitted
  have fits : AlternativeGroup.Over d.model.features ⟨parent, children⟩ :=
    ⟨(h.mem_index_iff parent).mp declared, nonempty, distinct,
      fun f hf => (h.mem_index_iff f).mp (all f hf)⟩
  constructor
  case parents_nodup =>
    rw [model, List.map_append, List.map_singleton, ← List.concat_eq_append]
    exact h.parents_nodup.concat (Model.alternativeOf?_eq_none_iff.mp free)
  case groups =>
    rw [model]
    exact List.forall_mem_append.mpr ⟨h.groups, List.forall_mem_singleton.mpr fits⟩
  all_goals rw [model]
  case features_nodup => exact h.features_nodup
  case mem_index_iff => exact index ▸ h.mem_index_iff
  case mandatory_sublist => exact h.mandatory_sublist
  case optional_sublist => exact h.optional_sublist
  case disjoint => exact h.disjoint

/-- More constraints change nothing of what fits together. -/
theorem WellFormed.constrained {constraints : List String} (h : d.WellFormed)
    (model : d'.model = { d.model with constraints := constraints }) (index : d'.index = d.index) :
    d'.WellFormed := by
  constructor <;> rw [model]
  case features_nodup => exact h.features_nodup
  case mem_index_iff => exact index ▸ h.mem_index_iff
  case mandatory_sublist => exact h.mandatory_sublist
  case optional_sublist => exact h.optional_sublist
  case disjoint => exact h.disjoint
  case parents_nodup => exact h.parents_nodup
  case groups => exact h.groups

theorem WellFormed.outcome {said : Request → Reply → Prop} {edit : Edit}
    {r : Except ModelFault Unit × Draft m} (h : d.WellFormed) (outcome : Outcome said d edit r) :
    r.2.WellFormed := by
  cases outcome with
  | refused => exact h.constrained rfl rfl
  | accepted texts tickets admitted =>
    cases edit with
    | mandatory f => exact h.declare admitted rfl rfl rfl (.inl ⟨.inr rfl, rfl⟩)
    | optional f => exact h.declare admitted rfl rfl rfl (.inr ⟨rfl, rfl⟩)
    | declared f => exact h.declare admitted rfl rfl rfl (.inl ⟨.inl rfl, rfl⟩)
    | alternative parent children => exact h.group admitted rfl rfl
    | constraint expression => exact h.constrained rfl rfl
    | excluded listed => exact h.constrained rfl rfl

/-! ## Every reachable draft -/

theorem satisfies_wellFormed {m : Type → Type} [Monad m] [LawfulMonad m] (name : String)
    (n : Normalizer m) (edits : List Edit) :
    SatisfiesM (fun run => run.2.WellFormed) ((empty name n).applyAll edits) := by
  refine satisfies_applyAll (fun d edit h => ?_) edits (wellFormed_empty name n)
  have replies (request : Request) :
      SatisfiesM (fun _ => True) (d.normalizer.engine.reply request) :=
    .of_true fun _ => trivial
  exact (satisfies_apply replies edit).imp h.outcome

theorem wellFormed_run (name : String) (n : Normalizer Id) (edits : List Edit) :
    ((empty name n).applyAll edits).run.2.WellFormed := by
  have kept := satisfiesM_id_iff.mp (satisfies_wellFormed name n edits)
  exact kept

namespace Sample

open Cnf.Sample

/-- Two features, a group and two constraints, and after each of them an edit that is refused: a
second declaration, a second group, a feature that is not declared, an empty exclusion. -/
def edits : List Edit :=
  [.mandatory a, .optional b, .declared a, .alternative a [b], .alternative a [a],
    .constraint "A | B", .constraint "A | C", .excluded [a], .excluded []]

def results : List (Except ModelFault Unit) :=
  [.ok (), .ok (), .error (.violation (.redefinition a .feature)), .ok (),
    .error (.violation (.redefinition a .alternativeGroup)), .ok (),
    .error (.violation (.unknownFeature c)), .ok (),
    .error (.violation (.emptyDirective .excluded))]

def edited : Model where
  name := "m"
  features := [a, b]
  mandatory := [a]
  optional := [b]
  alternatives := [⟨a, [b]⟩]
  constraints := ["A | B", "!A | B"]

def asker : Normalizer Id := .default { family := 0 }

/-- The results of the edits, and the draft after them. -/
def run : List (Except ModelFault Unit) × Draft Id :=
  ((Draft.empty "m" asker).applyAll edits).run

end Sample

end Draft

end ProductLine
