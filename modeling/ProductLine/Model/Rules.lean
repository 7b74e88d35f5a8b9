/- # Rules — what a directive may say about features

Each rule looks at the features declared so far and at those of a directive,
from left to right, and blames the first feature that breaks it.  How the
declared features are kept is left open: all that a rule asks of them is
whether they contain a feature.
-/
import ProductLine.Directive
import ProductLine.Feature

namespace ProductLine

inductive Definition where
  | feature
  | alternativeGroup
deriving DecidableEq

/-- A well-formed directive that breaks a rule of the model. -/
inductive Violation where
  | redefinition (feature : Feature) (definition : Definition)
  | unknownFeature (feature : Feature)
  | duplicateFeature (feature : Feature)
  | emptyDirective (directive : Directive)
  | directiveOrder (directive : Directive)
deriving DecidableEq

def Violation.message : Violation → String
  | redefinition f .feature => "feature `" ++ f.name ++ "` is already defined"
  | redefinition f .alternativeGroup => "alternative group of `" ++ f.name ++ "` is already defined"
  | unknownFeature f => "feature `" ++ f.name ++ "` is used before it is declared"
  | duplicateFeature f => "feature `" ++ f.name ++ "` is listed more than once"
  | emptyDirective d => "`" ++ d.keyword ++ "` directive lists no features"
  | directiveOrder d =>
    "`" ++ d.keyword ++ "` directive is not allowed after the first `excluded` directive"

namespace Rules

section Declared

variable {κ : Type} [Membership Feature κ] (known : κ) [∀ f, Decidable (f ∈ known)]

def undeclared (f : Feature) : Except Violation Unit :=
  if f ∈ known then .error (.redefinition f .feature) else .ok ()

def declared (f : Feature) : Except Violation Unit :=
  if f ∈ known then .ok () else .error (.unknownFeature f)

def allDeclared : List Feature → Except Violation Unit
  | [] => .ok ()
  | f :: fs =>
    match declared known f with
    | .error violation => .error violation
    | .ok () => allDeclared fs

end Declared

/-- No feature is repeated, and none of them is among those `seen` before. -/
def distinctFrom (seen : List Feature) : List Feature → Except Violation Unit
  | [] => .ok ()
  | f :: fs => if f ∈ seen then .error (.duplicateFeature f) else distinctFrom (f :: seen) fs

def distinct (fs : List Feature) : Except Violation Unit :=
  distinctFrom [] fs

def nonEmpty (fs : List Feature) (directive : Directive) : Except Violation Unit :=
  if fs.isEmpty then .error (.emptyDirective directive) else .ok ()

/-! ## When a rule is kept -/

section Declared

variable {κ : Type} [Membership Feature κ] {known : κ} [∀ f, Decidable (f ∈ known)]
  {f : Feature} {fs : List Feature}

theorem undeclared_eq_ok_iff : undeclared known f = .ok () ↔ f ∉ known := by
  unfold undeclared; split <;> simp_all

theorem declared_eq_ok_iff : declared known f = .ok () ↔ f ∈ known := by
  unfold declared; split <;> simp_all

theorem allDeclared_eq_ok_iff : allDeclared known fs = .ok () ↔ ∀ f ∈ fs, f ∈ known := by
  induction fs with
  | nil => simp [allDeclared]
  | cons f fs ih =>
    unfold allDeclared declared
    by_cases h : f ∈ known <;> simp [h, ih]

end Declared

theorem distinctFrom_eq_ok_iff {seen fs : List Feature} :
    distinctFrom seen fs = .ok () ↔ fs.Nodup ∧ ∀ f ∈ fs, f ∉ seen := by
  induction fs generalizing seen with
  | nil => simp [distinctFrom]
  | cons f fs ih =>
    unfold distinctFrom
    by_cases h : f ∈ seen
    · simp [h]
    · simp only [h, if_false, ih, List.mem_cons, List.nodup_cons]
      constructor
      · rintro ⟨nodup, fresh⟩
        refine ⟨⟨fun hf => fresh f hf (.inl rfl), nodup⟩, ?_⟩
        rintro g (rfl | hg)
        · exact h
        · exact fun hs => fresh g hg (.inr hs)
      · rintro ⟨⟨hf, nodup⟩, fresh⟩
        refine ⟨nodup, fun g hg => ?_⟩
        rintro (rfl | hs)
        · exact hf hg
        · exact fresh g (.inr hg) hs

theorem distinct_eq_ok_iff {fs : List Feature} : distinct fs = .ok () ↔ fs.Nodup := by
  simp [distinct, distinctFrom_eq_ok_iff]

theorem nonEmpty_eq_ok_iff {fs : List Feature} {d : Directive} :
    nonEmpty fs d = .ok () ↔ fs ≠ [] := by
  cases fs <;> simp [nonEmpty]

end Rules

end ProductLine
