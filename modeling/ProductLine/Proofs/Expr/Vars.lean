/- # The variables of an expression — a walk over its leaves

The walk keeps a list of trees still to be visited and takes them apart from
the left, so what it meets are the leaves of these trees one after the other
(`collect_eq_foldl`), and what it has found in the end are the features at
the leaves, of which it leaves out those it has met before
(`vars_eq_eraseDups`).  The value of the expression depends on no others
(`eval_congr`).
-/
import ProductLine.Expr.Basic

namespace ProductLine.Expr

/-- The features found, and one more at their end unless it is among them. -/
def note (found : List Feature) (f : Feature) : List Feature :=
  if f ∈ found then found else found ++ [f]

theorem collect_eq_foldl (found : List Feature) (todo : List Expr) :
    collect found todo = (todo.flatMap leaves).foldl note found := by
  fun_induction collect found todo with
  | case1 => rfl
  | case2 found f rest ih => exact ih
  | case3 found a rest ih => exact ih
  | case4 found a b rest ih | case5 found a b rest ih => simpa [leaves] using ih

theorem mem_note_iff {found : List Feature} {f g : Feature} :
    g ∈ note found f ↔ g ∈ found ∨ g = f := by
  unfold note
  split
  case isTrue h =>
    constructor
    · exact Or.inl
    · rintro (hg | rfl)
      · exact hg
      · exact h
  case isFalse => rw [List.mem_append, List.mem_singleton]

theorem mem_foldl_note_iff {found fs : List Feature} {g : Feature} :
    g ∈ fs.foldl note found ↔ g ∈ found ∨ g ∈ fs := by
  induction fs generalizing found with
  | nil => simp
  | cons f fs ih => rw [List.foldl_cons, ih, mem_note_iff, List.mem_cons, or_assoc]

theorem vars_eq_foldl (e : Expr) : e.vars = e.leaves.foldl note [] := by
  rw [vars, collect_eq_foldl, List.flatMap_singleton]

/-- The variables of an expression are the features at its leaves. -/
theorem mem_vars_iff {e : Expr} {f : Feature} : f ∈ e.vars ↔ f ∈ e.leaves := by
  rw [vars_eq_foldl, mem_foldl_note_iff]
  simp

/-! ## Later repetitions -/

theorem nodup_note {found : List Feature} (h : found.Nodup) (f : Feature) : (note found f).Nodup := by
  unfold note
  split
  case isTrue => exact h
  case isFalse fresh =>
    refine List.nodup_append.mpr ⟨h, List.pairwise_singleton _ f, fun g hg k hk same => ?_⟩
    exact fresh (List.mem_singleton.mp hk ▸ same ▸ hg)

theorem nodup_foldl_note {found : List Feature} (h : found.Nodup) (fs : List Feature) :
    (fs.foldl note found).Nodup := by
  induction fs generalizing found with
  | nil => exact h
  | cons f fs ih => exact ih (nodup_note h f)

theorem nodup_vars (e : Expr) : e.vars.Nodup := by
  rw [vars_eq_foldl]
  exact nodup_foldl_note List.nodup_nil _

/-- To pass over one more feature is to pass over it after all the others. -/
theorem removeAll_append_singleton (fs found : List Feature) (f : Feature) :
    fs.removeAll (found ++ [f]) = (fs.removeAll found).filter (!· == f) := by
  simp only [List.removeAll, List.filter_filter]
  refine List.filter_congr fun g _ => ?_
  rw [Bool.eq_iff_iff]
  simp [and_comm]

/-- What is added to the features found are the new ones, each where it comes first. -/
theorem foldl_note_eq_append (found fs : List Feature) :
    fs.foldl note found = found ++ (fs.removeAll found).eraseDups := by
  induction fs generalizing found with
  | nil => rw [List.nil_removeAll, List.eraseDups_nil, List.append_nil, List.foldl_nil]
  | cons f fs ih =>
    rw [List.foldl_cons, ih, List.cons_removeAll]
    by_cases known : f ∈ found
    · simp [note, known]
    · simp only [note, if_neg known, removeAll_append_singleton]
      simp [known, List.eraseDups_cons]

/-- The variables are the features at the leaves from left to right, without later repetitions. -/
theorem vars_eq_eraseDups (e : Expr) : e.vars = e.leaves.eraseDups := by
  rw [vars_eq_foldl, foldl_note_eq_append, List.removeAll_nil, List.nil_append]

/-! ## Values -/

/-- Two assignments that agree at the leaves give the expression the same value. -/
theorem eval_congr {e : Expr} {σ τ : Assignment} (agree : ∀ f ∈ e.leaves, σ f = τ f) :
    e.eval σ = e.eval τ := by
  induction e with
  | var f => exact agree f (List.mem_singleton_self f)
  | not a ih => rw [eval, eval, ih agree]
  | and a b iha ihb | or a b iha ihb =>
    obtain ⟨left, right⟩ := List.forall_mem_append.mp agree
    rw [eval, eval, iha left, ihb right]

end ProductLine.Expr
