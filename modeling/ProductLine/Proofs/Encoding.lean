/- # Exactly one — what the encoding of a group says

The disjunction of cubes is a text of the expression language, and the tree
that is read from it is true where exactly one of the children is
(`Encoding.exists_writes_exactlyOne`).  The argument goes in two steps: the
text of any list of cubes is that of a disjunction of conjunctions
(`writes_cubes`), and some cube of the children holds where one of them alone
does (`exists_cube_iff`).  The second step is about places in the list; that
no child is listed twice makes them as good as the children.

The language bounds the height of trees, and that of the encoding is twice the
number of children.  All cubes are equally high, since each has a negative
literal among its first two (`height_cube`), and the bars add a level each.  So
the encoding can be read back for 128 children and no more
(`parse_exactlyOne`).
-/
import Mathlib.Data.List.Nodup
import Mathlib.Logic.ExistsUnique
import ProductLine.Encoding
import ProductLine.Proofs.Expr.Chain

namespace ProductLine

/-- The conjunction of literals, of which there is at least one. -/
def Literal.conjunction (first : Literal) (rest : List Literal) : Expr :=
  Expr.Junction.and.chainOf first.expr (rest.map Literal.expr)

theorem Literal.eval_conjunction (σ : Assignment) (first : Literal) (rest : List Literal) :
    (conjunction first rest).eval σ = (first :: rest).all (Literal.eval σ) := by
  rw [conjunction, Expr.eval_chainOf_and, ← List.map_cons, List.all_map]
  exact congrArg (List.all _) (funext fun l => l.eval_expr σ)

namespace Encoding

/-! ## Texts of cubes -/

/-- A cube is an operand of a disjunction. -/
theorem writes_cubeText (first : Literal) (rest : List Literal) :
    ∃ n ≤ 2, Expr.Junction.or.operand.Writes n (cubeText (first :: rest)).toList
      (Literal.conjunction first rest) := by
  obtain ⟨n, hn, written⟩ : ∃ n ≤ 1, (Expr.Phrase.chain .and).Writes n
      (Expr.Junction.and.text.intercalate ((first :: rest).map Literal.text)).toList
      (Literal.conjunction first rest) :=
    Expr.writes_chain fun l _ => l.writes_text
  have inner : Expr.Phrase.expr.Writes n _ (Literal.conjunction first rest) :=
    .single .or written
  have cube : (Expr.Phrase.chain .and).Writes (n + 1) _ (Literal.conjunction first rest) :=
    .single .and inner.enclosed
  refine ⟨n + 1, Nat.succ_le_succ hn, ?_⟩
  simpa [cubeText, Expr.Junction.text, Expr.Junction.operand] using cube

theorem exists_pairs {α : Type} {lists : List (List α)} (h : ∀ l ∈ lists, l ≠ []) :
    ∃ pairs : List (α × List α), lists = pairs.map fun p => p.1 :: p.2 := by
  induction lists with
  | nil => exact ⟨[], rfl⟩
  | cons l lists ih =>
    obtain ⟨nonempty, others⟩ := List.forall_mem_cons.mp h
    obtain ⟨x, xs, rfl⟩ := List.exists_cons_of_ne_nil nonempty
    obtain ⟨pairs, rfl⟩ := ih others
    exact ⟨(x, xs) :: pairs, rfl⟩

/-- The tree of a cube, given by its first literal and the others. -/
def cubeTree (cube : Literal × List Literal) : Expr :=
  Literal.conjunction cube.1 cube.2

/-- The tree of the cubes, of which there is at least one. -/
def cubesTree (first : Literal × List Literal) (rest : List (Literal × List Literal)) : Expr :=
  Expr.Junction.or.chainOf (cubeTree first) (rest.map cubeTree)

section Trees

variable {first : Literal × List Literal} {rest : List (Literal × List Literal)}

/-- Cubes with bars between them are read as a disjunction of conjunctions. -/
theorem writes_cubes (first : Literal × List Literal) (rest : List (Literal × List Literal)) :
    ∃ n ≤ 2, Expr.Phrase.expr.Writes n
      (" | ".intercalate ((first :: rest).map fun q => cubeText (q.1 :: q.2))).toList
      (cubesTree first rest) := by
  have operands : ∀ q ∈ first :: rest, ∃ n ≤ 2, Expr.Junction.or.operand.Writes n
      (cubeText (q.1 :: q.2)).toList (cubeTree q) := fun q _ => writes_cubeText q.1 q.2
  exact Expr.writes_chain operands

theorem eval_cubesTree (σ : Assignment) : (cubesTree first rest).eval σ =
    ((first :: rest).map fun q => q.1 :: q.2).any fun cube => cube.all (Literal.eval σ) := by
  have values (q : Literal × List Literal) :
      (cubeTree q).eval σ = (q.1 :: q.2).all (Literal.eval σ) :=
    Literal.eval_conjunction σ q.1 q.2
  rw [cubesTree, Expr.eval_chainOf_or, ← List.map_cons, List.any_map, List.any_map]
  exact congrArg (List.any _) (funext values)

/-- Cubes of one height are raised by one level for each bar. -/
theorem height_cubesTree {k : Nat} (same : ∀ q ∈ first :: rest, (cubeTree q).height = k) :
    (cubesTree first rest).height = k + rest.length := by
  obtain ⟨hfirst, hrest⟩ := List.forall_mem_cons.mp same
  have level : ∀ e ∈ rest.map cubeTree, e.height ≤ (cubeTree first).height := by
    exact List.forall_mem_map.mpr fun q hq => Nat.le_of_eq ((hrest q hq).trans hfirst.symm)
  rw [cubesTree, Expr.height_chainOf level, hfirst, List.length_map]

end Trees

theorem spaced_cubeText (cube : List Literal) : Text.Spaced (cubeText cube).toList := by
  rw [cubeText, String.toList_append, String.toList_append, String.toList_intercalate, List.map_map]
  have opening : Text.Spaced "(".toList := Text.spaced_of_all rfl
  have closing : Text.Spaced ")".toList := Text.spaced_of_all rfl
  refine Text.spaced_append_iff.mpr ⟨Text.spaced_append_iff.mpr ⟨opening, ?_⟩, closing⟩
  refine Text.spaced_intercalate (Text.spaced_of_all rfl) fun word hword => ?_
  obtain ⟨l, -, rfl⟩ := List.mem_map.mp hword
  exact Text.spaced_of_forall fun _ => Literal.isBlank_of_mem_text

/-- The encoding stands on one line. -/
theorem spaced_of_exactlyOne {children : List Feature} {text : String}
    (h : exactlyOne children = some text) : Text.Spaced text.toList := by
  match children, h with
  | [child], h =>
    cases h
    exact Text.spaced_of_forall fun _ => Feature.isBlank_of_mem_name
  | first :: second :: rest, h =>
    cases h
    rw [String.toList_intercalate, List.map_map]
    refine Text.spaced_intercalate (Text.spaced_of_all rfl) fun word hword => ?_
    obtain ⟨cube, -, rfl⟩ := List.mem_map.mp hword
    exact spaced_cubeText cube

/-! ## Cubes of children -/

variable {children : List Feature} {σ : Assignment}

/-- The literal of a place is true in the cube of another one if that place agrees with it. -/
theorem eval_place (σ : Assignment) (f : Feature) (i j : Nat) :
    Literal.eval σ ⟨f, i != j⟩ = true ↔ (σ f = true ↔ i = j) := by
  by_cases h : i = j <;> cases hf : σ f <;> simp [Literal.eval, Literal.value, h, hf]

/-- Some cube is true where one child is and no other one. -/
theorem exists_cube_iff (distinct : children.Nodup) :
    ((exactlyOneCubes children).any fun cube => cube.all (Literal.eval σ)) = true ↔
      ∃! f, f ∈ children ∧ σ f = true := by
  have places : ((exactlyOneCubes children).any fun cube => cube.all (Literal.eval σ)) = true ↔
      ∃ i, ∃ _ : i < children.length, ∀ j (hj : j < children.length),
        σ children[j] = true ↔ i = j := by
    rw [List.any_eq_true]
    simp only [exactlyOneCubes, List.all_eq_true]
    constructor
    · rintro ⟨cube, hcube, holds⟩
      obtain ⟨i, hi, rfl⟩ := List.mem_mapIdx.mp hcube
      exact ⟨i, hi, fun j hj =>
        (eval_place σ _ i j).mp (holds _ (List.mem_mapIdx.mpr ⟨j, hj, rfl⟩))⟩
    · rintro ⟨i, hi, holds⟩
      refine ⟨_, List.mem_mapIdx.mpr ⟨i, hi, rfl⟩, fun l hl => ?_⟩
      obtain ⟨j, hj, rfl⟩ := List.mem_mapIdx.mp hl
      exact (eval_place σ _ i j).mpr (holds j hj)
  rw [places]
  constructor
  · rintro ⟨i, hi, holds⟩
    refine ⟨children[i], ⟨List.getElem_mem hi, (holds i hi).mpr rfl⟩, ?_⟩
    rintro g ⟨hg, true⟩
    obtain ⟨j, hj, rfl⟩ := List.mem_iff_getElem.mp hg
    obtain rfl := (holds j hj).mp true
    rfl
  · rintro ⟨f, ⟨hf, true⟩, only⟩
    obtain ⟨i, hi, rfl⟩ := List.mem_iff_getElem.mp hf
    refine ⟨i, hi, fun j hj => ⟨fun other => ?_, ?_⟩⟩
    · have same := only children[j] ⟨List.getElem_mem hj, other⟩
      exact (distinct.getElem_inj_iff.mp same).symm
    · rintro rfl
      exact true

/-! ## The text of the encoding -/

/-- Of the first two literals of a cube at least one is negative, wherever its positive one stands,
so that all cubes are equally high. -/
theorem height_cube {first second : Feature} {rest : List Feature} {l : Literal} {ls : List Literal}
    (h : l :: ls ∈ exactlyOneCubes (first :: second :: rest)) :
    (Literal.conjunction l ls).height = 3 + rest.length := by
  obtain ⟨i, hi, heq⟩ := List.mem_mapIdx.mp h
  rw [List.mapIdx_cons, List.mapIdx_cons] at heq
  obtain ⟨rfl, rfl⟩ := List.cons.inj heq
  have negative : (i != 0 || i != 0 + 1) = true := by
    cases i <;> simp
  rw [Literal.conjunction, Literal.height_chainOf, if_pos negative, List.length_mapIdx]

/-- The encoding of some children that are listed once is a text of the language, low enough to be
read if there are at most 128 of them, and is true where exactly one of them is. -/
theorem exists_writes_exactlyOne (nonempty : children ≠ []) (distinct : children.Nodup) :
    ∃ text, exactlyOne children = some text ∧
      ∃ n ≤ 2, ∃ e, Expr.Phrase.expr.Writes n text.toList e ∧
        (∀ σ, e.eval σ = true ↔ ∃! f, f ∈ children ∧ σ f = true) ∧
        (e.height ≤ maxDepth ↔ children.length ≤ 128) := by
  match children, nonempty, distinct with
  | [child], _, _ =>
    refine ⟨child.name, rfl, 0, Nat.zero_le 2, .var child, (Expr.writes_var child).whole,
      fun σ => ?_, ?_⟩
    · simp [Expr.eval, ExistsUnique]
    · exact iff_of_true (by decide : 1 ≤ maxDepth) (by decide : 1 ≤ 128)
  | first :: second :: rest, _, distinct =>
    have nonempty : ∀ cube ∈ exactlyOneCubes (first :: second :: rest), cube ≠ [] := by
      intro cube hcube
      obtain ⟨i, hi, rfl⟩ := List.mem_mapIdx.mp hcube
      simp
    obtain ⟨pairs, cubes⟩ := exists_pairs nonempty
    have length := congrArg List.length cubes
    rw [exactlyOneCubes, List.length_mapIdx, List.length_map] at length
    obtain ⟨p, ps, rfl⟩ := List.exists_cons_of_length_eq_add_one length.symm
    obtain ⟨n, hn, written⟩ := writes_cubes p ps
    refine ⟨" | ".intercalate ((exactlyOneCubes (first :: second :: rest)).map cubeText), rfl,
      n, hn, cubesTree p ps, ?writes, fun σ => ?value, ?height⟩
    case writes =>
      rw [cubes, List.map_map]
      exact written
    case value =>
      rw [eval_cubesTree, ← cubes, exists_cube_iff distinct]
    case height =>
      have same : ∀ q ∈ p :: ps, (cubeTree q).height = 3 + rest.length := by
        intro q hq
        have hcube : q.1 :: q.2 ∈ exactlyOneCubes (first :: second :: rest) := by
          rw [cubes]
          exact List.mem_map_of_mem hq
        exact height_cube hcube
      rw [height_cubesTree same, maxDepth, List.length_cons, List.length_cons]
      rw [List.length_cons, List.length_cons, List.length_cons] at length
      omega

/-- For children that are listed once, some cube is true where exactly one of them is; and the text
of the encoding is read if there are at most 128 of them, as an expression that is true there, and
is too deep if there are more. -/
theorem parse_exactlyOne (nonempty : children ≠ []) (distinct : children.Nodup) :
    (∀ σ, (∃ cube ∈ exactlyOneCubes children, ∀ l ∈ cube, l.eval σ = true) ↔
      ∃! f, f ∈ children ∧ σ f = true) ∧
    ∃ text, exactlyOne children = some text ∧
      ((∃ e, Expr.parse text = .ok e) ↔ children.length ≤ 128) ∧
      (Expr.TooDeep (Expr.parse text) ↔ 128 < children.length) ∧
      ∀ e, Expr.parse text = .ok e →
        ∀ σ, e.eval σ = true ↔ ∃! f, f ∈ children ∧ σ f = true := by
  refine ⟨fun σ => ?cubes, ?text⟩
  case cubes =>
    rw [← exists_cube_iff distinct, List.any_eq_true]
    simp only [List.all_eq_true]
  case text =>
    obtain ⟨text, encoded, n, hn, e, written, values, low⟩ :=
      exists_writes_exactlyOne nonempty distinct
    have nesting : n ≤ maxDepth := Nat.le_trans hn (by decide)
    refine ⟨text, encoded, ?_, ?_, fun e' read σ => ?_⟩
    · rw [← low]
      exact written.exists_ofChars_iff nesting
    · rw [← Nat.not_le, ← low, Nat.not_le]
      exact written.tooDeep_iff nesting
    · obtain ⟨rfl, -⟩ := (written.ofChars_eq_ok_iff nesting).mp read
      exact values σ

namespace Sample

/-- A feature that is called by a row of letters, one more than `n`. -/
def row (n : Nat) : Feature where
  name := String.ofList (List.replicate (n + 1) 'F')
  isIdentifier_name := by
    have letters : (List.replicate (n + 1) 'F').all isIdentifierChar = true :=
      List.all_eq_true.mpr fun c hc => by rw [List.eq_of_mem_replicate hc]; rfl
    simp [isIdentifier, letters, ← String.toList_inj]

def rows (n : Nat) : List Feature :=
  (List.range n).map row

theorem length_rows (n : Nat) : (rows n).length = n := by
  rw [rows, List.length_map, List.length_range]

theorem row_injective : Function.Injective row := by
  intro m n same
  have letters := congrArg (fun f => f.name.toList.length) same
  simpa [row] using letters

theorem nodup_rows (n : Nat) : (rows n).Nodup :=
  List.nodup_range.map row_injective

end Sample

open Encoding.Sample in
/-- The longest encoding that is read, and the shortest one that is not. -/
theorem parse_exactlyOne_rows :
    (rows 128 ≠ [] ∧ (rows 128).Nodup ∧
      (∀ σ, (∃ cube ∈ exactlyOneCubes (rows 128), ∀ l ∈ cube, l.eval σ = true) ↔
        ∃! f, f ∈ rows 128 ∧ σ f = true) ∧
      ∃ text e, exactlyOne (rows 128) = some text ∧ Expr.parse text = .ok e ∧
        ∀ σ, e.eval σ = true ↔ ∃! f, f ∈ rows 128 ∧ σ f = true) ∧
    rows 129 ≠ [] ∧ (rows 129).Nodup ∧
      ∃ text, exactlyOne (rows 129) = some text ∧ Expr.TooDeep (Expr.parse text) := by
  have some (n : Nat) : rows (n + 1) ≠ [] :=
    List.ne_nil_of_length_pos (by rw [length_rows]; exact n.succ_pos)
  refine ⟨⟨some 127, nodup_rows 128, ?read⟩, some 128, nodup_rows 129, ?refused⟩
  -- the children are replaced by a variable, since nothing but their number matters any more
  case read =>
    have encoding := parse_exactlyOne (some 127) (nodup_rows 128)
    rw [length_rows] at encoding
    generalize rows 128 = children at encoding ⊢
    obtain ⟨cubes, text, encoded, accepted, -, values⟩ := encoding
    obtain ⟨e, read⟩ := accepted.mpr (by decide)
    exact ⟨cubes, text, e, encoded, read, values e read⟩
  case refused =>
    have encoding := parse_exactlyOne (some 128) (nodup_rows 129)
    rw [length_rows] at encoding
    generalize rows 129 = children at encoding ⊢
    obtain ⟨-, text, encoded, -, refused, -⟩ := encoding
    exact ⟨text, encoded, refused.mpr (by decide)⟩

end Encoding

end ProductLine
