/- # Reports — which of several rules is blamed, and for which feature

A rule is given by what it reports where it is broken.  Of rules that are
checked in an order the first broken one is reported, whatever those after it
would say (`Reports`), and a check `Enforces` them if its errors are exactly
these reports.  A check and what comes next enforce the rule of the one before
those of the other (`Enforces.bind`), so nothing is needed of an operation but
the order of its checks and one lemma for each rule.

Two of the rules go over a list, and what they blame is a place in it: the
first undeclared feature, and the first feature that stands before already.
-/
import ProductLine.Proofs.Model

namespace ProductLine

/-! ## Places in a list -/

/-- The first of the features of which it is true. -/
def FirstOf (p : Feature → Prop) (fs : List Feature) (f : Feature) : Prop :=
  ∃ before after, fs = before ++ f :: after ∧ (∀ g ∈ before, ¬ p g) ∧ p f

/-- The first of the features that equals one before it or one of those `seen`. -/
def FirstRepeated (seen fs : List Feature) (f : Feature) : Prop :=
  ∃ before after, fs = before ++ f :: after ∧ before.Nodup ∧ (∀ g ∈ before, g ∉ seen) ∧
    (f ∈ before ∨ f ∈ seen)

section FirstOf

variable {p : Feature → Prop} {f g : Feature} {fs gs : List Feature}

theorem not_firstOf_nil : ¬ FirstOf p [] g := by
  rintro ⟨before, after, h, -⟩
  exact List.append_ne_nil_of_right_ne_nil before (List.cons_ne_nil g after) h.symm

theorem firstOf_cons_iff : FirstOf p (f :: fs) g ↔ (p f ∧ g = f) ∨ (¬ p f ∧ FirstOf p fs g) := by
  constructor
  · rintro ⟨before, after, h, none, hg⟩
    cases before with
    | nil =>
      obtain ⟨rfl, -⟩ := List.cons.inj h
      exact .inl ⟨hg, rfl⟩
    | cons first before =>
      obtain ⟨rfl, rest⟩ := List.cons.inj h
      obtain ⟨hf, none⟩ := List.forall_mem_cons.mp none
      exact .inr ⟨hf, before, after, rest, none, hg⟩
  · rintro (⟨hf, rfl⟩ | ⟨hf, before, after, rfl, none, hg⟩)
    · exact ⟨[], fs, rfl, List.forall_mem_nil _, hf⟩
    · exact ⟨f :: before, after, rfl, List.forall_mem_cons.mpr ⟨hf, none⟩, hg⟩

theorem firstOf_append_iff : FirstOf p (fs ++ gs) g ↔
    FirstOf p fs g ∨ ((∀ f ∈ fs, ¬ p f) ∧ FirstOf p gs g) := by
  induction fs with
  | nil => simp [not_firstOf_nil]
  | cons f fs ih =>
    rw [List.cons_append, firstOf_cons_iff, firstOf_cons_iff, ih, List.forall_mem_cons,
      and_or_left, or_assoc, and_assoc]

end FirstOf

section FirstRepeated

variable {f g : Feature} {seen fs : List Feature}

theorem not_firstRepeated_nil : ¬ FirstRepeated seen [] g := by
  rintro ⟨before, after, h, -⟩
  exact List.append_ne_nil_of_right_ne_nil before (List.cons_ne_nil g after) h.symm

/-- A feature that has been seen is blamed; one that has not been is seen from then on. -/
theorem firstRepeated_cons_iff : FirstRepeated seen (f :: fs) g ↔
    (f ∈ seen ∧ g = f) ∨ (f ∉ seen ∧ FirstRepeated (f :: seen) fs g) := by
  constructor
  · rintro ⟨before, after, h, nodup, fresh, again⟩
    cases before with
    | nil =>
      obtain ⟨rfl, -⟩ := List.cons.inj h
      exact .inl ⟨again.resolve_left List.not_mem_nil, rfl⟩
    | cons first before =>
      obtain ⟨rfl, rest⟩ := List.cons.inj h
      obtain ⟨other, nodup⟩ := List.nodup_cons.mp nodup
      obtain ⟨new, fresh⟩ := List.forall_mem_cons.mp fresh
      refine .inr ⟨new, before, after, rest, nodup, fun g hg => ?_, ?_⟩
      · rw [List.mem_cons, not_or]
        exact ⟨fun same => other (same ▸ hg), fresh g hg⟩
      · rw [List.mem_cons] at again ⊢
        rwa [or_assoc, or_left_comm] at again
  · rintro (⟨old, rfl⟩ | ⟨new, before, after, rfl, nodup, fresh, again⟩)
    · exact ⟨[], fs, rfl, List.nodup_nil, List.forall_mem_nil _, .inr old⟩
    · refine ⟨f :: before, after, rfl, List.nodup_cons.mpr ⟨fun hf => ?_, nodup⟩,
        List.forall_mem_cons.mpr ⟨new, fun g hg => ?_⟩, ?_⟩
      · exact fresh f hf List.mem_cons_self
      · exact List.not_mem_of_not_mem_cons (fresh g hg)
      · rw [List.mem_cons] at again ⊢
        rwa [or_assoc, or_left_comm]

end FirstRepeated

/-! ## Rules in their order -/

/-- What is reported where a rule is broken. -/
abbrev Rule := Violation → Prop

/-- The first broken one of the rules reports the violation. -/
inductive Reports : List Rule → Violation → Prop where
  | here {rule : Rule} {rules : List Rule} {v : Violation} : rule v → Reports (rule :: rules) v
  | later {rule : Rule} {rules : List Rule} {v : Violation} :
      (∀ w, ¬ rule w) → Reports rules v → Reports (rule :: rules) v

/-- The errors of the check are the reports of the rules in this order. -/
def Enforces {α : Type} (rules : List Rule) (check : Except Violation α) : Prop :=
  ∀ v, check = .error v ↔ Reports rules v

section Enforces

variable {α β : Type} {rule : Rule} {rules : List Rule}

theorem enforces_ok (a : α) : Enforces [] (.ok a : Except Violation α) :=
  fun _ => iff_of_false nofun nofun

theorem reports_singleton_iff {v : Violation} : Reports [rule] v ↔ rule v := by
  constructor
  · intro reported
    cases reported with
    | here broken => exact broken
    | later _ reported => cases reported
  · exact .here

theorem enforces_single {check : Except Violation α} (h : ∀ v, check = .error v ↔ rule v) :
    Enforces [rule] check :=
  fun v => (h v).trans reports_singleton_iff.symm

/-- A check that is passed leaves the word to what comes next, and one that is not does not. -/
theorem Enforces.bind {step : Except Violation α} {next : α → Except Violation β}
    (first : Enforces [rule] step) (rest : ∀ a, step = .ok a → Enforces rules (next a)) :
    Enforces (rule :: rules) (step >>= next) := by
  intro v
  cases step with
  | error w =>
    have broken : rule w := reports_singleton_iff.mp ((first w).mp rfl)
    constructor
    · rintro ⟨⟩
      exact .here broken
    · intro reported
      cases reported with
      | here broken => exact congrArg Except.error (Except.error.inj ((first v).mpr (.here broken)))
      | later kept => exact absurd broken (kept w)
  | ok a =>
    have kept : ∀ w, ¬ rule w := fun w broken => nomatch (first w).mpr (.here broken)
    constructor
    · intro h
      exact .later kept ((rest a rfl v).mp h)
    · intro reported
      cases reported with
      | here broken => exact absurd broken (kept v)
      | later _ reported => exact (rest a rfl v).mpr reported

end Enforces

/-! ## The rules of a model -/

namespace Rule

/-- The feature is declared. -/
def declared (features : List Feature) (f : Feature) : Rule :=
  fun v => f ∉ features ∧ v = .unknownFeature f

/-- All features are declared. -/
def allDeclared (features fs : List Feature) : Rule :=
  fun v => ∃ f, FirstOf (· ∉ features) fs f ∧ v = .unknownFeature f

/-- No feature stands in the list twice. -/
def distinct (fs : List Feature) : Rule :=
  fun v => ∃ f, FirstRepeated [] fs f ∧ v = .duplicateFeature f

/-- The directive lists some feature. -/
def nonEmpty (fs : List Feature) (directive : Directive) : Rule :=
  fun v => fs = [] ∧ v = .emptyDirective directive

/-- The feature owns no group. -/
def ownsNoGroup (groups : List AlternativeGroup) (parent : Feature) : Rule :=
  fun v => (∃ g ∈ groups, g.parent = parent) ∧ v = .redefinition parent .alternativeGroup

end Rule

namespace Rules

section Declared

variable {κ : Type} [Membership Feature κ] {known : κ} [∀ f, Decidable (f ∈ known)]
  {features : List Feature}

theorem enforces_declared (same : ∀ f, f ∈ known ↔ f ∈ features) (f : Feature) :
    Enforces [Rule.declared features f] (declared known f) := by
  refine enforces_single fun v => ?_
  unfold declared Rule.declared
  rw [← same]
  split <;> simp_all [eq_comm]

theorem enforces_allDeclared (same : ∀ f, f ∈ known ↔ f ∈ features) (fs : List Feature) :
    Enforces [Rule.allDeclared features fs] (allDeclared known fs) := by
  refine enforces_single fun v => ?_
  unfold Rule.allDeclared
  induction fs with
  | nil => simp [allDeclared, not_firstOf_nil]
  | cons f fs ih =>
    simp only [firstOf_cons_iff, ← same] at ih ⊢
    unfold allDeclared declared
    by_cases h : f ∈ known
    · simp [h, ih]
    · simp [h, eq_comm]

end Declared

theorem distinctFrom_eq_error_iff {seen fs : List Feature} {v : Violation} :
    distinctFrom seen fs = .error v ↔ ∃ f, FirstRepeated seen fs f ∧ v = .duplicateFeature f := by
  induction fs generalizing seen with
  | nil => simp [distinctFrom, not_firstRepeated_nil]
  | cons f fs ih =>
    simp only [firstRepeated_cons_iff]
    rw [distinctFrom]
    by_cases old : f ∈ seen
    · simp [old, eq_comm]
    · simp [old, ih]

theorem enforces_distinct (fs : List Feature) : Enforces [Rule.distinct fs] (distinct fs) :=
  enforces_single fun _ => distinctFrom_eq_error_iff

theorem enforces_nonEmpty (fs : List Feature) (directive : Directive) :
    Enforces [Rule.nonEmpty fs directive] (nonEmpty fs directive) := by
  refine enforces_single fun v => ?_
  cases fs <;> simp [nonEmpty, Rule.nonEmpty, eq_comm]

end Rules

/-! ## The operations that go by several rules -/

namespace Model

variable {m : Model} {index : FeatureSet}

theorem enforces_ownsNoGroup (m : Model) (parent : Feature) :
    Enforces [Rule.ownsNoGroup m.alternatives parent] (m.ownsNoGroup parent) := by
  refine enforces_single fun v => ?_
  have owns : (m.alternativeOf? parent).isSome ↔ ∃ g ∈ m.alternatives, g.parent = parent := by
    simp [alternativeOf?]
  rw [ownsNoGroup, Rule.ownsNoGroup, ← owns]
  cases (m.alternativeOf? parent).isSome <;> simp [eq_comm]

variable (same : ∀ f, f ∈ index ↔ f ∈ m.features)
include same

theorem enforces_addAlternative (parent : Feature) (children : List Feature) :
    Enforces [.declared m.features parent, .ownsNoGroup m.alternatives parent,
      .nonEmpty children .alternative, .distinct children, .allDeclared m.features children]
      (m.addAlternative index parent children) := by
  refine (Rules.enforces_declared same parent).bind fun _ _ => ?_
  refine (enforces_ownsNoGroup m parent).bind fun _ _ => ?_
  refine (Rules.enforces_nonEmpty children .alternative).bind fun _ _ => ?_
  refine (Rules.enforces_distinct children).bind fun _ _ => ?_
  exact (Rules.enforces_allDeclared same children).bind fun _ _ => enforces_ok _

theorem enforces_addExcluded (listed : List Feature) :
    Enforces [.nonEmpty listed .excluded, .distinct listed, .allDeclared m.features listed]
      (m.addExcluded index listed) := by
  refine (Rules.enforces_nonEmpty listed .excluded).bind fun _ _ => ?_
  refine (Rules.enforces_distinct listed).bind fun _ _ => ?_
  exact (Rules.enforces_allDeclared same listed).bind fun _ _ => enforces_ok _

end Model

end ProductLine
