/- # Rewriting — a model written back as a source

`Model.source` writes a model down again: a line for each feature in its class,
one for each group, and one for each clause as a constraint.  That the edits
of these lines are accepted in this order is what a reachable model
guarantees: features are declared once and before anything refers to them, no
parent has two groups, and each clause is plain.

A plain clause over at most 255 features can be read, since it is then at most
256 levels high, and it is its own conversion.  So the model that comes back
is the same, down to the texts of its clauses (`Source.compileText_source`).
-/
import ProductLine.Proofs.Draft.Stored
import ProductLine.Proofs.Source.Writing

namespace ProductLine

/-- The edit that declares a feature in its class. -/
def Model.declare (model : Model) (f : Feature) : Edit :=
  if f ∈ model.mandatory then .mandatory f
  else if f ∈ model.optional then .optional f
  else .declared f

/-- The features in their order, then the groups, then the clauses. -/
def Model.edits (model : Model) : List Edit :=
  model.features.map model.declare ++
    (model.alternatives.map (fun g => .alternative g.parent g.children) ++
      model.constraints.map .constraint)

/-- A source for the model: the lines of these edits. -/
def Model.source (model : Model) : String :=
  String.join (model.edits.map fun edit => edit.line ++ "\n")

/-! ## Features -/

/-- Of a list without repetitions, its members that are in a sublist are that sublist. -/
theorem filter_eq_of_sublist {fs gs : List Feature} {p : Feature → Bool} (sub : gs.Sublist fs)
    (distinct : fs.Nodup) (h : ∀ f ∈ fs, p f = true ↔ f ∈ gs) : fs.filter p = gs := by
  have all : gs.filter p = gs := List.filter_eq_self.mpr fun f hf => (h f (sub.subset hf)).mpr hf
  have sub' : gs.Sublist (fs.filter p) := all ▸ sub.filter p
  have members : fs.filter p ⊆ gs := fun f hf =>
    (h f (List.mem_of_mem_filter hf)).mp (List.of_mem_filter hf)
  have short := (List.subperm_of_subset (distinct.filter p) members).length_le
  exact (sub'.eq_of_length_le short).symm

namespace Model

variable {model : Model} {f : Feature}

theorem directive_declare_mem (model : Model) (f : Feature) :
    (model.declare f).directive ∈ [Directive.mandatory, .optional, .declared] := by
  unfold declare
  split
  · exact List.mem_cons_self
  · split <;> simp [Edit.directive]

theorem declare_ne_constraint (model : Model) (f : Feature) (expression : String) :
    model.declare f ≠ .constraint expression := by
  intro heq
  have kinds := directive_declare_mem model f
  rw [heq] at kinds
  exact absurd kinds (by simp [Edit.directive])

theorem arguments_declare : (model.declare f).arguments = f.name := by
  unfold declare
  split
  · rfl
  · split <;> rfl

theorem admitted_declare {d : Draft Id} (fresh : f ∉ d.index) (model : Model) :
    (model.declare f).Admitted d := by
  unfold declare
  split
  · exact fresh
  · split <;> exact fresh

theorem enter_declare (index : FeatureSet) : (model.declare f).enter index = index.insert f := by
  unfold declare
  split
  · rfl
  · split <;> rfl

/-- Declaring a feature in its class adds it to the list of that class, if it has one. -/
theorem extend_declare (before : Model) : (model.declare f).extend [] before = { before with
    features := before.features ++ [f]
    mandatory := before.mandatory ++ [f].filter (· ∈ model.mandatory)
    optional := before.optional ++
      [f].filter fun f => f ∉ model.mandatory ∧ f ∈ model.optional } := by
  unfold declare
  split
  case isTrue mandatory => simp [Edit.extend, mandatory]
  case isFalse other =>
    split
    case isTrue optional => simp [Edit.extend, other, optional]
    case isFalse neither => simp [Edit.extend, other, neither]

end Model

namespace Draft

variable {d : Draft Id}

/-- New features can be declared, each in the class that it has in the model. -/
theorem exists_accepts_declare (model : Model) {fs : List Feature} (fresh : ∀ f ∈ fs, f ∉ d.index)
    (distinct : fs.Nodup) : ∃ index, (∀ f, f ∈ index ↔ f ∈ d.index ∨ f ∈ fs) ∧
      Accepts d (fs.map model.declare) { d with
        index := index
        model := { d.model with
          features := d.model.features ++ fs
          mandatory := d.model.mandatory ++ fs.filter (· ∈ model.mandatory)
          optional := d.model.optional ++
            fs.filter fun f => f ∉ model.mandatory ∧ f ∈ model.optional } } := by
  induction fs generalizing d with
  | nil => exact ⟨d.index, by simp, by simpa using Accepts.nil d⟩
  | cons f fs ih =>
    obtain ⟨hf, hfs⟩ := List.forall_mem_cons.mp fresh
    obtain ⟨notMem, distinct⟩ := List.nodup_cons.mp distinct
    have first := apply_of_admitted (model.declare_ne_constraint f)
      (Model.admitted_declare hf model)
    rw [Model.extend_declare, Model.enter_declare] at first
    have others : ∀ g ∈ fs, g ∉ d.index.insert f := by
      intro g hg hmem
      rcases FeatureSet.mem_insert_iff.mp hmem with rfl | hmem
      · exact notMem hg
      · exact hfs g hg hmem
    obtain ⟨index, members, accepts⟩ :=
      ih (d := ⟨_, d.index.insert f, d.normalizer⟩) others distinct
    refine ⟨index, fun g => ?_, ?_⟩
    · rw [members, FeatureSet.mem_insert_iff, List.mem_cons]
      tauto
    · have parts (p : Feature → Bool) : (f :: fs).filter p = [f].filter p ++ fs.filter p := by
        rw [← List.filter_append, List.singleton_append]
      rw [parts, parts, ← List.append_assoc, ← List.append_assoc, List.append_cons]
      exact .cons first accepts

/-! ## Groups -/

/-- Groups over declared features can be added if no parent comes twice. -/
theorem accepts_alternatives {groups : List AlternativeGroup} {fs : List Feature}
    (declared : ∀ f ∈ fs, f ∈ d.index) (fits : ∀ g ∈ groups, g.Over fs)
    (parents : ((d.model.alternatives ++ groups).map AlternativeGroup.parent).Nodup) :
    Accepts d (groups.map fun g => .alternative g.parent g.children)
      { d with model := { d.model with alternatives := d.model.alternatives ++ groups } } := by
  induction groups generalizing d with
  | nil => simpa using Accepts.nil d
  | cons g groups ih =>
    obtain ⟨fit, fits⟩ := List.forall_mem_cons.mp fits
    have free : d.model.alternativeOf? g.parent = none := by
      rw [Model.alternativeOf?_eq_none_iff]
      rw [List.map_append, List.map_cons] at parents
      intro hmem
      exact List.disjoint_of_nodup_append parents hmem List.mem_cons_self
    have admitted : (Edit.alternative g.parent g.children).Admitted d :=
      ⟨declared _ fit.parent, free, fit.nonempty, fit.distinct,
        fun f hf => declared f (fit.declared f hf)⟩
    rw [List.append_cons] at parents ⊢
    exact .cons (apply_of_admitted nofun admitted) (ih declared fits parents)

end Draft

/-! ## Constraints -/

/-- The engine converts in place with a budget for one clause at least, and is always in time. -/
def Normalizer.Unhurried (n : Normalizer Id) : Prop :=
  ∀ request, ∃ maxClauses pace,
    n.engine.reply request = (Engine.builtin maxClauses pace : Engine Id).reply request ∧
    (⟨maxClauses, pace.clock⟩ : Cnf.Limits).Lenient ∧ pace.elapsed.micros < n.timeout.micros

theorem Normalizer.unhurried_default (tickets : TicketBook) :
    (default tickets : Normalizer Id).Unhurried :=
  have patient : 0 < defaultTimeout.micros := by decide
  fun _ => ⟨Cnf.defaultMaxClauses, {}, rfl, ⟨by decide, fun _ => rfl⟩, patient⟩

variable {fs : List Feature} {text : String}

/-- A clause over so many features is read as the disjunction of its literals. -/
theorem KeepsClause.exists_disjunction (h : KeepsClause fs text) (small : fs.length ≤ 255) :
    ∃ first rest, Clause.Plain ⟨first :: rest⟩ ∧ (∀ l ∈ first :: rest, l.feature ∈ fs) ∧
      text = Clause.text ⟨first :: rest⟩ ∧
      Expr.parse text = .ok (Clause.disjunction first rest) := by
  obtain ⟨⟨ls⟩, plain, names, rfl⟩ := h
  obtain ⟨first, rest, rfl⟩ := List.exists_cons_of_ne_nil plain.nonempty
  have members : (first :: rest).map Literal.feature ⊆ fs := by
    intro f hf
    obtain ⟨l, hl, rfl⟩ := List.mem_map.mp hf
    exact names l hl
  have short := (List.subperm_of_subset plain.distinct members).length_le
  rw [List.length_map, List.length_cons] at short
  exact ⟨first, rest, plain, names, rfl, Clause.parse_eq_ok (by omega)⟩

/-- A stored clause is a fixed point of reading and converting. -/
theorem KeepsClause.convertText_eq (h : KeepsClause fs text) (small : fs.length ≤ 255)
    {limits : Cnf.Limits} (lenient : limits.Lenient) :
    Engine.convertText limits text = .ok [text] := by
  obtain ⟨first, rest, plain, -, htext, hparse⟩ := h.exists_disjunction small
  rw [Engine.convertText, hparse]
  dsimp only
  rw [Cnf.convert_disjunction lenient plain, htext]
  rfl

theorem KeepsClause.normalize_eq (h : KeepsClause fs text) (small : fs.length ≤ 255)
    {n : Normalizer Id} (unhurried : n.Unhurried) :
    (n.normalize text).run = (.ok [text], n.advance) := by
  obtain ⟨first, rest, -, -, -, hparse⟩ := h.exists_disjunction small
  have asked : n.request text = .ok ⟨n.tickets.ticket, text, n.timeout⟩ := by
    rw [Normalizer.request, hparse]
    rfl
  obtain ⟨maxClauses, pace, hreply, lenient, inTime⟩ :=
    unhurried ⟨n.tickets.ticket, text, n.timeout⟩
  have reply : (Engine.builtin maxClauses pace : Engine Id).reply
      ⟨n.tickets.ticket, text, n.timeout⟩ = pure ⟨.answered (.ok [text]), pace.elapsed⟩ := by
    rw [← h.convertText_eq small lenient]
    rfl
  have settled : n.settle ⟨.answered (.ok [text]), pace.elapsed⟩ = .ok [text] :=
    if_neg (Nat.not_le.mpr inTime)
  unfold Normalizer.normalize
  rw [asked]
  dsimp only
  rw [hreply, reply, Id.run_bind, Id.run_pure, Id.run_pure, settled]

namespace Draft

variable {d : Draft Id}

/-- Clauses over declared features can be added, and are added as they are. -/
theorem exists_accepts_constraints {texts : List String} (unhurried : d.normalizer.Unhurried)
    (declared : ∀ f ∈ fs, f ∈ d.index) (small : fs.length ≤ 255)
    (kept : ∀ text ∈ texts, KeepsClause fs text) : ∃ n, Accepts d (texts.map .constraint)
      { d with
        normalizer := n
        model := { d.model with constraints := d.model.constraints ++ texts } } := by
  induction texts generalizing d with
  | nil => exact ⟨d.normalizer, by simpa using Accepts.nil d⟩
  | cons text texts ih =>
    obtain ⟨clause, kept⟩ := List.forall_mem_cons.mp kept
    obtain ⟨first, rest, -, names, -, hparse⟩ := clause.exists_disjunction small
    have vars : ∀ f ∈ (Clause.disjunction first rest).vars, f ∈ d.index := by
      intro f hf
      rw [Expr.mem_vars_iff, Clause.leaves_disjunction] at hf
      obtain ⟨l, hl, rfl⟩ := List.mem_map.mp hf
      exact declared _ (names l hl)
    have once : (d.apply (.constraint text)).run = (.ok (), ⟨d.model.addClauses [text], d.index,
        d.normalizer.advance⟩) :=
      constrain_eq_ok_iff.mpr
        ⟨_, [text], hparse, vars, clause.normalize_eq small unhurried, rfl, rfl⟩
    obtain ⟨n, accepts⟩ := ih (d := ⟨d.model.addClauses [text], d.index, d.normalizer.advance⟩)
      unhurried declared kept
    refine ⟨n, ?_⟩
    rw [List.append_cons]
    exact .cons once accepts

end Draft

/-! ## The whole model -/

section Whole

variable {d : Draft Id}

/-- Everything that a reachable model holds can be written down. -/
theorem Draft.Stored.writable_edits (stored : d.Stored) :
    ∀ edit ∈ d.model.edits, edit.Writable ∧ edit.directive ≠ .excluded := by
  unfold Model.edits
  refine List.forall_mem_append.mpr ⟨?features, List.forall_mem_append.mpr ⟨?groups, ?clauses⟩⟩
  case features =>
    refine List.forall_mem_map.mpr fun f _ => ⟨?_, fun excluded => ?_⟩
    · refine Edit.writable_of_names (List.cons_ne_nil f []) ?_
      rw [Model.arguments_declare, List.map_singleton, String.intercalate_singleton]
    · have kinds := d.model.directive_declare_mem f
      rw [excluded] at kinds
      exact absurd kinds (by decide)
  case groups =>
    refine List.forall_mem_map.mpr fun g _ => ⟨?_, nofun⟩
    exact Edit.writable_of_names (List.cons_ne_nil g.parent g.children) rfl
  case clauses =>
    refine List.forall_mem_map.mpr fun text htext => ⟨?_, nofun⟩
    obtain ⟨c, plain, -, rfl⟩ := stored.kept text htext
    exact Edit.writable_constraint plain.nonempty

/-- The edits of a reachable model lead from an empty draft to the same model. -/
theorem Draft.Stored.exists_accepts (stored : d.Stored) (small : d.model.features.length ≤ 255)
    (name : String) {n : Normalizer Id} (unhurried : n.Unhurried) :
    ∃ final, Draft.Accepts (.empty name n) d.model.edits final ∧
      final.model = { d.model with name := name } := by
  have fits := stored.wellFormed
  obtain ⟨model, index, normalizer⟩ := d
  obtain ⟨name', features, mandatory, optional, alternatives, constraints⟩ := model
  obtain ⟨index', members, declares⟩ := Draft.exists_accepts_declare (d := .empty name n)
    ⟨name', features, mandatory, optional, alternatives, constraints⟩
    (fun f _ => FeatureSet.notMem_empty f) fits.features_nodup
  have inMandatory : features.filter (· ∈ mandatory) = mandatory :=
    filter_eq_of_sublist fits.mandatory_sublist fits.features_nodup fun f _ => decide_eq_true_iff
  have inOptional : features.filter (fun f => f ∉ mandatory ∧ f ∈ optional) = optional := by
    refine filter_eq_of_sublist fits.optional_sublist fits.features_nodup fun f _ => ?_
    rw [decide_eq_true_iff]
    exact and_iff_right_of_imp fun hoptional hmandatory => fits.disjoint f hmandatory hoptional
  rw [inMandatory, inOptional] at declares
  have declared : ∀ f ∈ features, f ∈ index' := fun f hf => (members f).mpr (.inr hf)
  have groups := Draft.accepts_alternatives
    (d := ⟨⟨name, features, mandatory, optional, [], []⟩, index', n⟩) declared fits.groups
    fits.parents_nodup
  obtain ⟨n', clauses⟩ := Draft.exists_accepts_constraints
    (d := ⟨⟨name, features, mandatory, optional, alternatives, []⟩, index', n⟩) unhurried declared
    small stored.kept
  exact ⟨_, declares.append (groups.append clauses), rfl⟩

end Whole

/-- A compiled model with at most 255 features, written back as a source, compiles to itself again;
and each of its constraints is a fixed point of reading and converting, text for text. -/
theorem Source.compileText_source {name source : String} {n n' : Normalizer Id}
    {model : Model} (name' : String) (builtin : n.engine.ActsBuiltin)
    (accepted : (compileText name n source).run = .ok model)
    (small : model.features.length ≤ 255) (unhurried : n'.Unhurried) :
    (compileText name' n' model.source).run = .ok { model with name := name' } ∧
    ∀ text ∈ model.constraints, ∀ limits : Cnf.Limits, limits.Lenient →
      Engine.convertText limits text = .ok [text] := by
  obtain ⟨d, stored, rfl⟩ := exists_stored_of_compileText builtin accepted
  refine ⟨?again, fun text htext limits lenient => ?fixed⟩
  case again =>
    obtain ⟨final, accepts, hmodel⟩ := stored.exists_accepts small name' unhurried
    have written := stored.writable_edits
    have run := Compilation.feedLines_of_accepts accepts written 1
    have lines : Text.lines d.model.source.toList =
        d.model.edits.map fun edit => edit.line.toList := by
      have cut := Text.lines_join (List.forall_mem_map.mpr fun edit h =>
        (written edit h).1.spaced_line.oneLine)
      rw [List.map_map, List.map_map] at cut
      exact cut
    refine compileText_eq_ok_iff.mpr ⟨⟨final, .open⟩, ?_, hmodel⟩
    rw [lines]
    exact run
  case fixed => exact (stored.kept text htext).convertText_eq small lenient

namespace Sample

open Cnf.Sample

/-- A feature of each class, a group, a constraint of two clauses and an exclusion. -/
def mixed : String :=
  "mandatory A\noptional B\ndeclared C\nalternative A B C\nconstraint A & B | C\nexcluded A B\n"

def mixedModel : Model where
  name := "m"
  features := [a, b, c]
  mandatory := [a]
  optional := [b]
  alternatives := [⟨a, [b, c]⟩]
  constraints := ["A | C", "B | C", "!A | !B | C"]

/-- The same model again, where the exclusion has become a constraint. -/
def mixedAgain : String :=
  "mandatory A\noptional B\ndeclared C\nalternative A B C\nconstraint A | C\n" ++
    "constraint B | C\nconstraint !A | !B | C\n"

end Sample

open Sample in
theorem Source.compileText_source_mixed :
    (compileText "m" (.default { family := 0 } : Normalizer Id) mixed).run = .ok mixedModel ∧
      mixedModel.source = mixedAgain ∧
      (compileText "m" (.default { family := 1 } : Normalizer Id) mixedModel.source).run =
        .ok mixedModel ∧
      Engine.convertText {} "!A | !B | C" = .ok ["!A | !B | C"] := by
  have accepted : (compileText "m" (.default { family := 0 } : Normalizer Id) mixed).run =
      .ok mixedModel := by
    cbv
  have builtin : (Normalizer.default { family := 0 } : Normalizer Id).engine.ActsBuiltin :=
    Engine.actsBuiltin_builtin _ _
  obtain ⟨again, fixed⟩ := Source.compileText_source "m" builtin accepted (by decide)
    (Normalizer.unhurried_default { family := 1 })
  exact ⟨accepted, by cbv, again, fixed _ (by decide) {} ⟨by decide, fun _ => rfl⟩⟩

end ProductLine
