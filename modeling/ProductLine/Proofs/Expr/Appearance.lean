/- # Appearance — the variables of an expression as its text shows them

The variables are listed in the order in which they are first named in the text
of the expression.  That a feature is named first at some column is not enough
to say so, since columns have to be compared; `NamedBefore` says of two features
that the one is named in front of every place where the other is.

A text names one feature at a column (`NameAt.unique`), so of two features that
are named one comes first.  Which one, the tokens of the text decide, and
these are the leaves of the tree: of the text of an expression the expression is
a derivation, however deep it is.  So the order in the text is that of first
places among the leaves, and this is the order of a list that has each feature
once, where it comes first.
-/
import ProductLine.Proofs.Expr.Names
import ProductLine.Proofs.Expr.Walk
import ProductLine.Proofs.Expr.Writing

namespace ProductLine

/-- The first feature is named in the text before any place where the second one is. -/
def NamedBefore (cs : List Char) (f g : Feature) : Prop :=
  ∃ column, NameAt cs column f ∧ ∀ column', NameAt cs column' g → column < column'

section Text

variable {cs : List Char} {ts : List Token} {column : Nat} {f g : Feature}

/-- No two features are named at one column. -/
theorem NameAt.unique (h : NameAt cs column f) (h' : NameAt cs column g) : f = g := by
  obtain ⟨left, right, cut, place, -, after⟩ := h
  obtain ⟨left', right', cut', place', -, after'⟩ := h'
  have length : left.length = left'.length := by omega
  have same := List.append_inj_right (cut.symm.trans cut') length
  exact eq_of_name_append same after after'

/-- The tokens name what the text names. -/
theorem Lexes.mem_features_iff (h : Lexes cs ts) :
    f ∈ Token.features ts ↔ ∃ column, NameAt cs column f := by
  constructor
  · intro hf
    obtain ⟨before, after, cut, fresh⟩ := List.eq_append_cons_of_mem hf
    have first : FirstOf (· = f) (Token.features ts) f :=
      ⟨before, after, cut, fun g hg same => fresh (same ▸ hg), rfl⟩
    obtain ⟨column, hname, -⟩ := h.firstNamed first
    exact ⟨column, hname⟩
  · rintro ⟨column, hname⟩
    exact h.mem_features hname

/-- Of two features the one that comes first among the tokens is named first in the text. -/
theorem Lexes.namedBefore (h : Lexes cs ts) (different : f ≠ g)
    (first : FirstOf (fun x => x = f ∨ x = g) (Token.features ts) f) : NamedBefore cs f g := by
  obtain ⟨column, hname, -, least⟩ := h.firstNamed first
  refine ⟨column, hname, fun column' hname' => ?_⟩
  refine Nat.lt_of_le_of_ne (least column' g hname' (.inr rfl)) fun same => ?_
  subst same
  exact different (hname.unique hname')

/-- In a list without repetitions every feature comes before those after it. -/
theorem pairwise_firstOf {fs : List Feature} (distinct : fs.Nodup) :
    fs.Pairwise fun f g => f ≠ g ∧ FirstOf (fun x => x = f ∨ x = g) fs f := by
  induction fs with
  | nil => exact .nil
  | cons f fs ih =>
    obtain ⟨fresh, distinct⟩ := List.nodup_cons.mp distinct
    refine List.pairwise_cons.mpr ⟨fun g hg => ?_, (ih distinct).imp_of_mem ?_⟩
    · exact ⟨fun same => fresh (same ▸ hg), firstOf_cons_iff.mpr (.inl ⟨.inl rfl, rfl⟩)⟩
    · rintro g k hg hk ⟨different, first⟩
      have neither : ¬ (f = g ∨ f = k) := by
        rintro (rfl | rfl)
        · exact fresh hg
        · exact fresh hk
      exact ⟨different, firstOf_cons_iff.mpr (.inr ⟨neither, first⟩)⟩

end Text

namespace Expr

/-- The text of an expression spells its leaves. -/
theorem exists_lexes_text (e : Expr) :
    ∃ ts, Lexes e.text.toList ts ∧ e.leaves = Token.features ts := by
  obtain ⟨n, written, -⟩ := e.writes_text
  obtain ⟨ts, lexes, derives⟩ : Phrase.expr.Writes n e.text.toList e :=
    written.looser (Nat.zero_le _)
  exact ⟨ts, lexes, derives.leaves_eq⟩

/-- The features are those of the expression, each once, in the order in which its text names them
for the first time. -/
structure Inventory (e : Expr) (fs : List Feature) : Prop where
  distinct : fs.Nodup
  mem_iff_leaf : ∀ f, f ∈ fs ↔ f ∈ e.leaves
  mem_iff_named : ∀ f, f ∈ fs ↔ ∃ column, NameAt e.text.toList column f
  inOrder : fs.Pairwise (NamedBefore e.text.toList)

theorem inventory_vars (e : Expr) : e.Inventory e.vars := by
  obtain ⟨ts, lexes, leaves⟩ := e.exists_lexes_text
  refine ⟨e.nodup_vars, fun f => mem_vars_iff, fun f => ?_, ?_⟩
  · rw [mem_vars_iff, leaves, lexes.mem_features_iff]
  · refine (pairwise_firstOf e.nodup_vars).imp ?_
    rintro f g ⟨different, first⟩
    rw [firstOf_vars_iff, leaves] at first
    exact lexes.namedBefore different first

/-- The walk over an expression ends, after as many rounds as the expression has nodes.  What it has
found are the features at the leaves from left to right without later repetitions, which are listed
in the order of their first appearance in the text, and on which alone the value of the expression
depends. -/
theorem walk_inventory_vars (e : Expr) :
    (∃ w, Walk.rounds e.size (.start e) = some w ∧ w.round = none ∧ w.found = e.vars) ∧
      e.vars = e.leaves.eraseDups ∧ e.Inventory e.vars ∧
      ∀ σ τ : Assignment, (∀ f ∈ e.vars, σ f = τ f) → e.eval σ = e.eval τ := by
  refine ⟨Walk.exists_rounds_start e, e.vars_eq_eraseDups, e.inventory_vars, fun σ τ agree => ?_⟩
  exact eval_congr fun f hf => agree f (mem_vars_iff.mpr hf)

namespace Sample

def ab : Feature := .ofRun 'A' ['B'] rfl
def b : Feature := .ofRun 'B' [] rfl
def a : Feature := .ofRun 'A' [] rfl

/-- `AB & (B | !AB) | A`, where the last name is a part of the first one. -/
def overlapping : Expr :=
  .or (.and (.var ab) (.or (.var b) (.not (.var ab)))) (.var a)

end Sample

open Expr.Sample in
/-- The first place of `A` is behind that of `B`, although `AB` starts with the same letter.  Two
assignments that differ at all other features give one value. -/
theorem walk_inventory_vars_overlapping :
    overlapping.text = "AB & (B | !AB) | A" ∧ overlapping.vars = [ab, b, a] ∧
      NamedBefore overlapping.text.toList b a ∧
      overlapping.eval (fun f => f == ab) = overlapping.eval (fun f => f != b && f != a) := by
  obtain ⟨-, listed, inventory, decided⟩ := walk_inventory_vars overlapping
  have vars : overlapping.vars = [ab, b, a] := listed.trans (by decide)
  rw [vars] at inventory decided
  have pairs := List.pairwise_cons.mp (List.pairwise_cons.mp inventory.inOrder).2
  exact ⟨by decide, vars, pairs.1 a List.mem_cons_self, decided _ _ (by decide)⟩

end Expr

end ProductLine
