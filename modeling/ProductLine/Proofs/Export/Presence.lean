/- # What the presence conditions mean

The export is a text, and its reader has nothing else.  So the meaning is
given to the text: its paragraphs are the entries, an entry is read after
every `defined(F)` in it has become `F`, and it is an expression or an
implication between two (`Condition.Reads`).  The expressions are those of the
grammar, in which nothing bounds the nesting; `=>` is no token of theirs, so
it stands outside of all operators without any parentheses.

Each entry can be read in one way alone, and is true where what it stands for
is: a mandatory feature, a group, or a clause, in the order of the model.  An
assignment satisfies all entries if and only if it satisfies the model
(`Export.satisfies_presence_iff`).
-/
import ProductLine.Export.Format
import ProductLine.Proofs.Draft.Stored
import ProductLine.Proofs.Encoding
import ProductLine.Proofs.Export.Wrapping
import ProductLine.Proofs.Text.Lines

namespace ProductLine

namespace Export

/-! ## Reading a condition -/

/-- An expression, or an implication between two. -/
inductive Condition where
  | plain (e : Expr)
  | implies (premise conclusion : Expr)

namespace Condition

/-- The value of a condition under an assignment. -/
def eval (σ : Assignment) : Condition → Bool
  | plain e => e.eval σ
  | implies p e => !p.eval σ || e.eval σ

/-- The text spells the condition, where `=>` binds loosest. -/
inductive Reads : List Char → Condition → Prop where
  | plain {n : Nat} {cs : List Char} {e : Expr} :
      Expr.Phrase.expr.Writes n cs e → Reads cs (.plain e)
  | implies {m n : Nat} {ps cs : List Char} {p e : Expr} :
      Expr.Phrase.expr.Writes m ps p → Expr.Phrase.expr.Writes n cs e →
      Reads (ps ++ ("=>".toList ++ cs)) (.implies p e)

/-- There is no arrow in an expression. -/
theorem arrow_notMem {k : Expr.Phrase} {n : Nat} {cs : List Char} {e : Expr}
    (h : k.Writes n cs e) : '=' ∉ cs := by
  obtain ⟨ts, lexes, -⟩ := h
  intro hmem
  rcases lexes.inAlphabet '=' hmem with blank | symbol | letter
  · exact absurd blank (by decide)
  · exact absurd symbol (by decide)
  · exact absurd letter (by decide)

/-- A text is cut at its first arrow. -/
theorem cut_at_arrow {ps qs cs ds : List Char} (hps : '=' ∉ ps) (hqs : '=' ∉ qs)
    (h : ps ++ '=' :: cs = qs ++ '=' :: ds) : ps = qs ∧ cs = ds := by
  have pieces := congrArg (List.splitOn '=') h
  rw [List.splitOn_append_cons_self_of_not_mem hps,
    List.splitOn_append_cons_self_of_not_mem hqs] at pieces
  obtain ⟨rfl, -⟩ := List.cons.inj pieces
  exact ⟨rfl, (List.cons.inj (List.append_cancel_left h)).2⟩

/-- A text is read as a condition in one way. -/
theorem Reads.unique {cs ds : List Char} {a b : Condition} (h : Reads cs a) (h' : Reads ds b)
    (same : cs = ds) : a = b := by
  cases h with
  | plain written =>
    cases h' with
    | plain written' =>
      subst same
      rw [written.unique written']
    | @implies m n ps cs p e premise conclusion =>
      -- one of the texts has an arrow, and the other one is an expression
      have arrow : '=' ∈ ps ++ ("=>".toList ++ cs) := List.mem_append_right _ List.mem_cons_self
      exact absurd (same ▸ arrow) (arrow_notMem written)
  | @implies m n ps cs p e premise conclusion =>
    cases h' with
    | plain written' =>
      have arrow : '=' ∈ ps ++ ("=>".toList ++ cs) := List.mem_append_right _ List.mem_cons_self
      exact absurd (same ▸ arrow) (arrow_notMem written')
    | implies premise' conclusion' =>
      obtain ⟨rfl, tail⟩ := cut_at_arrow (arrow_notMem premise) (arrow_notMem premise') same
      obtain rfl := (List.cons.inj tail).2
      rw [premise.unique premise', conclusion.unique conclusion']

end Condition

/-! ## What a model demands -/

/-- The assignment satisfies an entry: once its names are bare, it is read as a condition that is
true. -/
def Satisfies (σ : Assignment) (entry : String) : Prop :=
  ∃ c, Condition.Reads (bare entry.toList) c ∧ c.eval σ = true

/-- What the features, groups and clauses of a model ask of an assignment, one by one. -/
def demands (m : Model) : List (Assignment → Prop) :=
  m.mandatory.map (fun f σ => σ f = true) ++
    (m.alternatives.map (fun g σ => σ g.parent = true → ∃! f, f ∈ g.children ∧ σ f = true) ++
      m.constraints.map fun text σ => ∃ c, Clause.ofText? text = some c ∧ c.eval σ = true)

/-- The entry can be read in one way, and is satisfied where the demand is met. -/
structure Means (entry : String) (demand : Assignment → Prop) : Prop where
  unambiguous : ∃! c, Condition.Reads (bare entry.toList) c
  satisfies_iff : ∀ σ, Satisfies σ entry ↔ demand σ

/-! ## Conditions -/

/-- The condition can be read, as one that is true where the demand is met, and stands on one
line. -/
structure Asks (condition : String) (demand : Assignment → Prop) : Prop where
  reads : ∃ c, Condition.Reads condition.toList c ∧ ∀ σ, c.eval σ = true ↔ demand σ
  spaced : Text.Spaced condition.toList
  visible : ∃ c ∈ condition.toList, Text.isBlank c = false

/-- A name asks for its feature. -/
theorem asks_name (f : Feature) : Asks f.name fun σ => σ f = true where
  reads := ⟨.plain (.var f), .plain (Expr.writes_var f).whole, fun σ => Iff.rfl⟩
  spaced := Text.spaced_of_forall fun _ => Feature.isBlank_of_mem_name
  visible := by
    have edged := Text.edged_of_forall fun c (hc : c ∈ f.name.toList) =>
      Feature.isBlank_of_mem_name hc
    exact edged.visible f.toList_name_ne_nil

/-- The text of a plain clause asks for the clause. -/
theorem asks_clause {fs : List Feature} {text : String} (h : KeepsClause fs text) :
    Asks text fun σ => ∃ c, Clause.ofText? text = some c ∧ c.eval σ = true := by
  obtain ⟨c, plain, -, rfl⟩ := h
  have visible := c.edged_text.visible (Clause.toList_text_ne_nil plain.nonempty)
  refine ⟨?reads, c.spaced_text, visible⟩
  case reads =>
    have read := Clause.ofText?_text plain.nonempty
    obtain ⟨literals⟩ := c
    obtain ⟨first, rest, rfl⟩ := List.exists_cons_of_ne_nil plain.nonempty
    obtain ⟨n, -, written⟩ := Clause.writes_text first rest
    refine ⟨.plain (Clause.disjunction first rest), .plain written, fun σ => ?_⟩
    rw [Condition.eval, Clause.eval_disjunction, read]
    simp

/-- The condition of a group asks for one child if it asks for anything. -/
theorem asks_group {fs : List Feature} {g : AlternativeGroup} (h : g.Over fs) :
    Asks (groupCondition g) fun σ => σ g.parent = true → ∃! f, f ∈ g.children ∧ σ f = true := by
  obtain ⟨text, encoded, n, -, e, written, values, -⟩ :=
    Encoding.exists_writes_exactlyOne h.nonempty h.distinct
  have parent := asks_name g.parent
  have spelled : (groupCondition g).toList =
      g.parent.name.toList ++ [' '] ++ ("=>".toList ++ ' ' :: text.toList) := by
    simp [groupCondition, AlternativeGroup.clause, encoded]
  refine ⟨?reads, ?spaced, ?visible⟩ <;> rw [spelled]
  case reads =>
    have premise := (Expr.writes_var g.parent).whole.append_space
    refine ⟨_, .implies premise written.space_cons, fun σ => ?_⟩
    rw [Condition.eval, ← values]
    cases hparent : σ g.parent <;> simp [Expr.eval, hparent]
  case spaced =>
    have arrow : Text.Spaced "=>".toList := Text.spaced_of_all rfl
    have premise : Text.Spaced (g.parent.name.toList ++ [' ']) :=
      Text.spaced_append_iff.mpr ⟨parent.spaced, Text.spaced_space⟩
    have conclusion : Text.Spaced ([' '] ++ text.toList) :=
      Text.spaced_append_iff.mpr ⟨Text.spaced_space, Encoding.spaced_of_exactlyOne encoded⟩
    exact Text.spaced_append_iff.mpr ⟨premise, Text.spaced_append_iff.mpr ⟨arrow, conclusion⟩⟩
  case visible =>
    obtain ⟨c, hc, ink⟩ := parent.visible
    exact ⟨c, List.mem_append_left _ (List.mem_append_left _ hc), ink⟩

/-- A model with stored clauses has a condition for each of its demands. -/
theorem forall₂_asks {d : Draft Id} (stored : d.Stored) :
    List.Forall₂ Asks (conditions d.model) (demands d.model) := by
  have features : List.Forall₂ Asks (d.model.mandatory.map Feature.name)
      (d.model.mandatory.map fun f σ => σ f = true) := by
    rw [List.forall₂_map_left_iff, List.forall₂_map_right_iff, List.forall₂_same]
    intro f _
    exact asks_name f
  have groups : List.Forall₂ Asks (d.model.alternatives.map groupCondition)
      (d.model.alternatives.map fun g σ =>
        σ g.parent = true → ∃! f, f ∈ g.children ∧ σ f = true) := by
    rw [List.forall₂_map_left_iff, List.forall₂_map_right_iff, List.forall₂_same]
    intro g hg
    exact asks_group (stored.wellFormed.groups g hg)
  have clauses : List.Forall₂ Asks d.model.constraints
      (d.model.constraints.map fun text σ =>
        ∃ c, Clause.ofText? text = some c ∧ c.eval σ = true) := by
    rw [List.forall₂_map_right_iff, List.forall₂_same]
    intro text htext
    exact asks_clause (stored.kept text htext)
  rw [conditions, demands, List.append_assoc]
  exact List.rel_append features (List.rel_append groups clauses)

/-! ## The entries -/

/-- What is asked by a condition is what its entry means. -/
theorem Asks.means {condition : String} {demand : Assignment → Prop} (h : Asks condition demand) :
    Means (wrapDefined condition) demand := by
  obtain ⟨c, reads, values⟩ := h.reads
  refine ⟨?unambiguous, fun σ => ?satisfies_iff⟩
  case unambiguous =>
    rw [bare_wrapDefined]
    exact ⟨c, reads, fun c' reads' => reads'.unique reads rfl⟩
  case satisfies_iff =>
    unfold Satisfies
    rw [bare_wrapDefined, ← values]
    constructor
    · rintro ⟨c', reads', true⟩
      rwa [reads.unique reads' rfl]
    · intro true
      exact ⟨c, reads, true⟩

/-- All entries are satisfied where all demands are met. -/
theorem satisfies_all_iff {entries : List String} {demands : List (Assignment → Prop)}
    (h : List.Forall₂ Means entries demands) (σ : Assignment) :
    (∀ entry ∈ entries, Satisfies σ entry) ↔ ∀ demand ∈ demands, demand σ := by
  induction h with
  | nil => simp
  | cons means _ ih => rw [List.forall_mem_cons, List.forall_mem_cons, means.satisfies_iff, ih]

/-- The paragraphs of the export are the entries. -/
theorem paragraphs_presence {m : Model} {demands : List (Assignment → Prop)}
    (asks : List.Forall₂ Asks (conditions m) demands) :
    Text.paragraphs (presence m) = (conditions m).map wrapDefined := by
  have lines : ∀ condition ∈ conditions m,
      Text.Spaced condition.toList ∧ ∃ c ∈ condition.toList, Text.isBlank c = false := by
    have both := asks.imp fun condition demand (h : Asks condition demand) =>
      And.intro (And.intro h.spaced h.visible) h
    exact ((List.forall₂_and_left _ _).mp both).1
  have joined : presence m = String.join (((conditions m).map wrapDefined).map (· ++ "\n\n")) := by
    rw [presence, List.map_map]
    rfl
  rw [joined]
  refine Text.paragraphs_join (List.forall_mem_map.mpr ?oneLine) (List.forall_mem_map.mpr ?visible)
  case oneLine =>
    intro condition h
    rw [toList_wrapDefined]
    exact (spaced_wrapFrom (lines condition h).1).oneLine
  case visible =>
    intro condition h
    obtain ⟨c, hc, ink⟩ := (lines condition h).2
    rw [toList_wrapDefined]
    exact ⟨c, subset_wrapFrom _ hc, ink⟩

/-- The entries of the export are the conditions of the model, in its order.  Each of them can be
read in one way, as what its feature, group or clause asks for; an assignment satisfies all of them
if and only if it satisfies the model. -/
theorem satisfies_presence_iff (name : String) {n : Normalizer Id} (builtin : n.engine.ActsBuiltin)
    (edits : List Edit) :
    let m := ((Draft.empty name n).applyAll edits).run.2.model
    let entries := Text.paragraphs (ExportFormat.presence.generate m)
    entries.map (fun entry => String.ofList (bare entry.toList)) = conditions m ∧
    List.Forall₂ Means entries (demands m) ∧
    ∀ σ, (∀ entry ∈ entries, Satisfies σ entry) ↔
      (∀ f ∈ m.mandatory, σ f = true) ∧
      (∀ g ∈ m.alternatives, σ g.parent = true → ∃! f, f ∈ g.children ∧ σ f = true) ∧
      ∀ text ∈ m.constraints, ∃ c, Clause.ofText? text = some c ∧ c.eval σ = true := by
  intro m entries
  -- where the engine comes in: without it the constraints could be any texts
  have asks : List.Forall₂ Asks (conditions m) (demands m) :=
    forall₂_asks (Draft.stored_applyAll name builtin edits)
  have wrapped : entries = (conditions m).map wrapDefined := paragraphs_presence asks
  have means : List.Forall₂ Means entries (demands m) := by
    rw [wrapped, List.forall₂_map_left_iff]
    exact asks.imp fun _ _ => Asks.means
  refine ⟨?bare, means, fun σ => ?satisfies⟩
  case bare =>
    rw [wrapped, List.map_map]
    refine List.map_id'' (fun condition => ?_) _
    rw [Function.comp_apply, bare_wrapDefined, String.ofList_toList]
  case satisfies =>
    rw [satisfies_all_iff means, demands, List.forall_mem_append, List.forall_mem_append,
      List.forall_mem_map, List.forall_mem_map, List.forall_mem_map]

end Export

namespace Sample

open Cnf.Sample

/-- A group and an exclusion; the second group is refused. -/
def grouped : List Edit :=
  [.mandatory a, .optional b, .optional c, .alternative a [b, c], .alternative a [b],
    .excluded [b, c]]

def groupedModel : Model where
  name := "m"
  features := [a, b, c]
  mandatory := [a]
  optional := [b, c]
  alternatives := [⟨a, [b, c]⟩]
  constraints := ["!B | !C | A"]

def groupedEntries : List String :=
  ["defined(A)", "defined(A) => (defined(B) & !defined(C)) | (!defined(B) & defined(C))",
    "!defined(B) | !defined(C) | defined(A)"]

end Sample

open Sample Export in
theorem Export.satisfies_presence_grouped :
    ((Draft.empty "m" (.default { family := 0 } : Normalizer Id)).applyAll grouped).run.2.model =
        groupedModel ∧
      Text.paragraphs (ExportFormat.presence.generate groupedModel) = groupedEntries ∧
      List.Forall₂ Means groupedEntries (demands groupedModel) ∧
      ∀ σ, (∀ entry ∈ groupedEntries, Satisfies σ entry) ↔
        (∀ f ∈ groupedModel.mandatory, σ f = true) ∧
        (∀ g ∈ groupedModel.alternatives,
          σ g.parent = true → ∃! f, f ∈ g.children ∧ σ f = true) ∧
        ∀ text ∈ groupedModel.constraints, ∃ c, Clause.ofText? text = some c ∧ c.eval σ = true := by
  have model : ((Draft.empty "m" (.default { family := 0 } : Normalizer Id)).applyAll
      grouped).run.2.model = groupedModel := by
    cbv
  have builtin : (Normalizer.default { family := 0 } : Normalizer Id).engine.ActsBuiltin :=
    Engine.actsBuiltin_builtin _ _
  have asks := forall₂_asks (Draft.stored_applyAll "m" builtin grouped)
  rw [model] at asks
  have entries : Text.paragraphs (ExportFormat.presence.generate groupedModel) =
      groupedEntries := by
    rw [ExportFormat.generate, paragraphs_presence asks]
    cbv
  obtain ⟨-, means, satisfies⟩ := satisfies_presence_iff "m" builtin grouped
  rw [model, entries] at means satisfies
  exact ⟨model, entries, means, satisfies⟩

end ProductLine
