/- # Stored clauses — what a model keeps of its constraints

With the built-in engine every constraint of a reachable model is the text of
a plain clause over declared features (`Stored`): those of a `constraint` come
from a conversion, that of an exclusion from features that are listed once.
The text is therefore one that can be read, as a clause and as an expression,
and it is as good as the clause.
-/
import ProductLine.Proofs.Cnf.Fixpoint
import ProductLine.Proofs.Cnf.Vocabulary
import ProductLine.Proofs.ClauseText
import ProductLine.Proofs.Draft.WellFormed
import ProductLine.Proofs.Expr.Vars
import ProductLine.Proofs.Source.Run

namespace ProductLine

/-- The text is that of a plain clause over the features. -/
def KeepsClause (features : List Feature) (text : String) : Prop :=
  ∃ c : Clause, c.Plain ∧ (∀ l ∈ c.literals, l.feature ∈ features) ∧ text = c.text

theorem KeepsClause.mono {features features' : List Feature} {text : String}
    (h : KeepsClause features text) (sub : features ⊆ features') : KeepsClause features' text := by
  obtain ⟨c, plain, names, rfl⟩ := h
  exact ⟨c, plain, fun l hl => sub (names l hl), rfl⟩

/-- The text is that of a clause whose features are among those listed. -/
def NamesAmong (features : List Feature) (text : String) : Prop :=
  ∃ c, Clause.ofText? text = some c ∧ ∀ l ∈ c.literals, l.feature ∈ features

theorem KeepsClause.namesAmong {features : List Feature} {text : String}
    (h : KeepsClause features text) : NamesAmong features text := by
  obtain ⟨c, plain, names, rfl⟩ := h
  exact ⟨c, Clause.ofText?_text plain.nonempty, names⟩

theorem keepsClause_excludedClause {all listed : List Feature} (nonempty : listed ≠ [])
    (distinct : listed.Nodup) (distinct' : all.Nodup) (declared : ∀ f ∈ listed, f ∈ all) :
    KeepsClause all (Encoding.excludedClause all listed).text := by
  refine ⟨_, Encoding.plain_excludedClause nonempty distinct distinct', fun l hl => ?_, rfl⟩
  rcases List.mem_append.mp hl with hl | hl
  · obtain ⟨f, hf, rfl⟩ := List.mem_map.mp hl
    exact declared f hf
  · obtain ⟨f, hf, rfl⟩ := List.mem_map.mp hl
    exact (List.mem_filter.mp hf).1

namespace Draft

/-- With the built-in engine at hand, every constraint is the text of a plain clause. -/
structure Stored (d : Draft Id) : Prop where
  wellFormed : d.WellFormed
  builtin : d.normalizer.engine.ActsBuiltin
  kept : ∀ text ∈ d.model.constraints, KeepsClause d.model.features text

variable {d d' : Draft Id} {edit : Edit}

theorem stored_empty (name : String) {n : Normalizer Id} (builtin : n.engine.ActsBuiltin) :
    (empty name n).Stored where
  wellFormed := wellFormed_empty name n
  builtin := builtin
  kept := nofun

/-- The variables of an expression are declared before its clauses are added. -/
theorem Stored.kept_constrain {expression : String} (h : d.Stored)
    (hconstrain : (d.constrain expression).run = (.ok (), d')) :
    ∀ text ∈ d'.model.constraints, KeepsClause d'.model.features text := by
  obtain ⟨e, texts, hparse, hdeclared, hnormalize, hmodel, -⟩ :=
    constrain_eq_ok_iff.mp hconstrain
  obtain ⟨e', hparse', rfl⟩ := Normalizer.normalize_eq_ok h.builtin hnormalize
  obtain rfl : e = e' := Except.ok.inj (hparse.symm.trans hparse')
  rw [hmodel]
  refine List.forall_mem_append.mpr ⟨h.kept, List.forall_mem_map.mpr fun c hc => ?_⟩
  refine ⟨c, Cnf.plain_of_mem_conversion hc, fun l hl => ?_, rfl⟩
  have occurs : l.feature ∈ e.vars :=
    Expr.mem_vars_iff.mpr (Cnf.feature_mem_leaves_of_mem_conversion hc hl)
  exact (h.wellFormed.mem_index_iff l.feature).mp (hdeclared l.feature occurs)

theorem Stored.kept_apply (h : d.Stored) (edit : Edit) :
    ∀ text ∈ (d.apply edit).run.2.model.constraints,
      KeepsClause (d.apply edit).run.2.model.features text := by
  have outcome := outcome_apply d edit
  generalize hrun : (d.apply edit).run = r at outcome
  cases outcome with
  | refused => exact h.kept
  | accepted texts tickets admitted =>
    have longer (f : Feature) : d.model.features ⊆ d.model.features ++ [f] :=
      List.subset_append_left _ _
    cases edit with
    | mandatory f | optional f | declared f =>
      exact fun text htext => (h.kept text htext).mono (longer f)
    | alternative parent children => exact h.kept
    | constraint expression => exact h.kept_constrain hrun
    | excluded listed =>
      obtain ⟨nonempty, distinct, declared⟩ := admitted
      refine List.forall_mem_append.mpr ⟨h.kept, List.forall_mem_singleton.mpr ?_⟩
      exact keepsClause_excludedClause nonempty distinct h.wellFormed.features_nodup
        fun f hf => (h.wellFormed.mem_index_iff f).mp (declared f hf)

theorem Stored.apply (h : d.Stored) (edit : Edit) : (d.apply edit).run.2.Stored where
  wellFormed := h.wellFormed.outcome (outcome_apply d edit)
  builtin := (outcome_apply d edit).engine ▸ h.builtin
  kept := h.kept_apply edit

/-- After any edits, accepted or refused. -/
theorem stored_applyAll (name : String) {n : Normalizer Id} (builtin : n.engine.ActsBuiltin)
    (edits : List Edit) : ((empty name n).applyAll edits).run.2.Stored := by
  have step (d : Draft Id) (edit : Edit) (h : d.Stored) :
      SatisfiesM (fun outcome => outcome.2.Stored) (d.apply edit) :=
    satisfiesM_id_iff.mpr (h.apply edit)
  have kept := satisfiesM_id_iff.mp (satisfies_applyAll step edits (stored_empty name builtin))
  exact kept

/-- Whatever the engine is and whatever it does, after any edits the lists of the model and the
index fit together, and the look-up of groups finds exactly the groups there are.  With the built-in
engine the constraints name declared features only. -/
theorem wellFormed_applyAll (name : String) (edits : List Edit) :
    (∀ (m : Type → Type) [Monad m] [LawfulMonad m] (n : Normalizer m),
      SatisfiesM (fun run => run.2.WellFormed ∧ ∀ parent children,
          run.2.model.alternativeOf? parent = some children ↔
            ⟨parent, children⟩ ∈ run.2.model.alternatives)
        ((empty name n).applyAll edits)) ∧
    ∀ n : Normalizer Id, n.engine.ActsBuiltin →
      ∀ text ∈ ((empty name n).applyAll edits).run.2.model.constraints,
        NamesAmong ((empty name n).applyAll edits).run.2.model.features text := by
  constructor
  · intro m _ _ n
    exact (satisfies_wellFormed name n edits).imp fun fits =>
      ⟨fits, fun _ _ => Model.alternativeOf?_eq_some_iff fits.parents_nodup⟩
  · intro n builtin text htext
    exact ((stored_applyAll name builtin edits).kept text htext).namesAmong

open Draft.Sample Cnf.Sample in
theorem wellFormed_sample :
    run.1 = results ∧ run.2.model = edited ∧ run.2.WellFormed ∧
      run.2.model.alternativeOf? a = some [b] ∧
      ∀ text ∈ run.2.model.constraints, NamesAmong run.2.model.features text := by
  have builtin : asker.engine.ActsBuiltin := Engine.actsBuiltin_builtin _ _
  have kept := satisfiesM_id_iff.mp ((wellFormed_applyAll "m" edits).1 Id asker)
  have hmodel : run.2.model = edited := by cbv
  refine ⟨by cbv, hmodel, kept.1, (kept.2 a [b]).mpr ?_, ?_⟩
  · change _ ∈ run.2.model.alternatives
    rw [hmodel]
    exact List.mem_singleton.mpr rfl
  · exact (wellFormed_applyAll "m" edits).2 asker builtin

end Draft

/-! ## Compiled sources -/

namespace Compilation

theorem stored_feed {c c' : Compilation Id} {line : List Char} (h : c.draft.Stored)
    (hfeed : (c.feed line).run = (.ok (), c')) : c'.draft.Stored := by
  rcases feed_eq_ok_iff.mp hfeed with ⟨-, rfl⟩ | ⟨d, arguments, -, hperform⟩
  · exact h
  · obtain ⟨-, edit, draft, -, happly, rfl⟩ := perform_eq_ok_iff.mp hperform
    have kept := h.apply edit
    rwa [happly] at kept

end Compilation

/-- The model of an accepted source is that of a draft with stored clauses. -/
theorem Source.exists_stored_of_compileText {name source : String} {n : Normalizer Id}
    {model : Model} (builtin : n.engine.ActsBuiltin)
    (accepted : (Source.compileText name n source).run = .ok model) :
    ∃ d : Draft Id, d.Stored ∧ d.model = model := by
  obtain ⟨final, hrun, rfl⟩ := Source.compileText_eq_ok_iff.mp accepted
  have start : (Compilation.start name n).draft.Stored := Draft.stored_empty name builtin
  have kept : final.draft.Stored :=
    @Compilation.feedLines_invariant _ _ _ (fun c _ => c.draft.Stored)
      (fun h hfeed => Compilation.stored_feed h hfeed) [] _ start hrun
  exact ⟨final.draft, kept, rfl⟩

end ProductLine
