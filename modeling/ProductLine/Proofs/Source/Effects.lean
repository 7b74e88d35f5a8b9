/- # Effects — reading a source does what engines do, and nothing else

Where actions change a state, reading a source may change it too, because the
engine that is asked on the way is an action.  That is the only reason: from the
state before to the state after lead requests to the engine, one after the other
and none at all if there is no constraint.  An engine without effects leaves
everything as it is.

The engine is that of the normalizer with which the source was started.  Drafts
pass normalizers on from line to line, so what each action returns has to be
followed along with the state.
-/
import Mathlib.Logic.Relation
import ProductLine.Source.Compile

namespace ProductLine

variable {σ α β : Type}

/-- Requests to the engine lead from one state to another. -/
def Engine.Leads (engine : Engine (StateM σ)) : σ → σ → Prop :=
  Relation.ReflTransGen fun s s' => ∃ request, ((engine.reply request).run s).2 = s'

/-- From whatever state it starts, the action comes where requests to the engine lead, with a result
of which `p` holds. -/
def Engine.Moves (engine : Engine (StateM σ)) (x : StateM σ α) (p : α → Prop) : Prop :=
  ∀ s, engine.Leads s (x.run s).2 ∧ p (x.run s).1

namespace Engine

variable {engine : Engine (StateM σ)} {x : StateM σ α} {p : α → Prop} {q : β → Prop}

/-- What every request keeps, all of them keep. -/
theorem Leads.keeps {p : σ → Prop}
    (step : ∀ request s, p s → p ((engine.reply request).run s).2) {s s' : σ}
    (leads : engine.Leads s s') (start : p s) : p s' := by
  induction leads with
  | refl => exact start
  | tail _ requested ih =>
    obtain ⟨request, rfl⟩ := requested
    exact step request _ ih

theorem moves_pure {a : α} (h : p a) : engine.Moves (pure a) p :=
  fun _ => ⟨.refl, h⟩

theorem moves_reply (request : Request) : engine.Moves (engine.reply request) fun _ => True :=
  fun _ => ⟨.single ⟨request, rfl⟩, trivial⟩

theorem Moves.bind {f : α → StateM σ β} (h : engine.Moves x p)
    (next : ∀ a, p a → engine.Moves (f a) q) : engine.Moves (x >>= f) q := by
  intro s
  obtain ⟨leads, result⟩ := h s
  obtain ⟨leads', result'⟩ := next _ result (x.run s).2
  exact ⟨leads.trans leads', result'⟩

end Engine

theorem Normalizer.moves_normalize (n : Normalizer (StateM σ)) (expression : String) :
    n.engine.Moves (n.normalize expression) fun answer => answer.2.engine = n.engine := by
  unfold normalize
  split
  · exact Engine.moves_pure rfl
  · exact (Engine.moves_reply _).bind fun reply _ => Engine.moves_pure rfl

namespace Draft

variable (d : Draft (StateM σ))

theorem normalizer_revise (index : FeatureSet) (change : Except Violation Model) :
    (d.revise index change).2.normalizer = d.normalizer := by
  cases change <;> rfl

theorem moves_constrain (expression : String) :
    d.normalizer.engine.Moves (d.constrain expression) fun outcome =>
      outcome.2.normalizer.engine = d.normalizer.engine := by
  unfold constrain
  split
  · exact Engine.moves_pure rfl
  split
  · exact Engine.moves_pure rfl
  refine (d.normalizer.moves_normalize expression).bind fun answer same => ?_
  obtain ⟨_ | clauses, normalizer⟩ := answer
  · exact Engine.moves_pure same
  · exact Engine.moves_pure same

theorem moves_apply (edit : Edit) :
    d.normalizer.engine.Moves (d.apply edit) fun outcome =>
      outcome.2.normalizer.engine = d.normalizer.engine := by
  cases edit with
  | constraint expression => exact d.moves_constrain expression
  | mandatory | optional | declared | alternative | excluded =>
    exact Engine.moves_pure (by rw [normalizer_revise])

end Draft

namespace Compilation

variable {engine : Engine (StateM σ)} {c : Compilation (StateM σ)}

theorem moves_perform (same : c.draft.normalizer.engine = engine) (d : Directive)
    (arguments : List Char) : engine.Moves (c.perform d arguments) fun outcome =>
      outcome.2.draft.normalizer.engine = engine := by
  unfold perform
  split
  · exact Engine.moves_pure same
  split
  · exact Engine.moves_pure same
  rename_i edit _
  have moves := c.draft.moves_apply edit
  rw [same] at moves
  refine moves.bind fun outcome same' => ?_
  obtain ⟨_ | _, draft⟩ := outcome
  · exact Engine.moves_pure same'
  · exact Engine.moves_pure same'

theorem moves_feed (same : c.draft.normalizer.engine = engine) (line : List Char) :
    engine.Moves (c.feed line) fun outcome => outcome.2.draft.normalizer.engine = engine := by
  unfold feed
  split
  · exact Engine.moves_pure same
  · exact Engine.moves_pure same
  · exact moves_perform same _ _

theorem moves_feedLines (same : c.draft.normalizer.engine = engine) (number : Nat)
    (lines : List (Except FileFault (List Char))) :
    engine.Moves (c.feedLines number lines) fun result =>
      ∀ c', result = .ok c' → c'.draft.normalizer.engine = engine := by
  induction lines generalizing c number with
  | nil =>
    refine Engine.moves_pure fun c' h => ?_
    obtain rfl := Except.ok.inj h
    exact same
  | cons line lines ih =>
    cases line with
    | error fault => exact Engine.moves_pure nofun
    | ok line =>
      refine (moves_feed same line).bind fun outcome same' => ?_
      obtain ⟨_ | _, c'⟩ := outcome
      · exact Engine.moves_pure nofun
      · exact ih same' (number + 1)

end Compilation

namespace Source

variable {read : Nat → StateM σ (Except FileFault (List UInt8))}

theorem moves_compileRest {engine : Engine (StateM σ)}
    (reads : ∀ offset, engine.Moves (read offset) fun _ => True) {c : Compilation (StateM σ)}
    (same : c.draft.normalizer.engine = engine) (rounds number offset : Nat)
    (unfinished : List UInt8) :
    engine.Moves (compileRest read rounds c number offset unfinished) fun _ => True := by
  induction rounds generalizing c number offset unfinished with
  | zero => exact Engine.moves_pure trivial
  | succ rounds ih =>
    refine (reads offset).bind fun block _ => ?_
    cases block with
    | error fault => exact Engine.moves_pure trivial
    | ok block =>
      dsimp only
      split
      · exact Engine.moves_pure trivial
      · refine (Compilation.moves_feedLines same number _).bind fun result same' => ?_
        cases result with
        | error fault => exact Engine.moves_pure trivial
        | ok c' => exact ih (same' c' rfl) _ _ _

/-- If what reads the source has no effects but those of the engine, compiling it has no others. -/
theorem moves_compileStream (name : String) (n : Normalizer (StateM σ))
    (reads : ∀ offset, n.engine.Moves (read offset) fun _ => True) :
    n.engine.Moves (compileStream name n read) fun _ => True :=
  moves_compileRest reads rfl maxRounds 1 0 []

end Source

end ProductLine
