/- # Stretches — wrapping a text piece by piece

A text is cut where an identifier character and another one meet, and in one way
(`isCut_iff`).  Wrapping goes from piece to piece: two texts can be wrapped apart
unless the first one ends inside of a name and the second one goes on with it
(`wrapFrom_append`), and a cut never has a name on both of its sides.  So the
pieces come out in their order, the names as `defined(…)` and the others as they
are.
-/
import Mathlib.Data.List.SplitBy
import ProductLine.Proofs.Export.Wrapping

namespace ProductLine.Export

/-- Both characters are identifier characters, or neither is one. -/
def sameKind (c d : Char) : Bool :=
  isIdentifierChar c == isIdentifierChar d

/-- The pieces are the maximal runs of identifier characters in the text and the stretches between
them, in their order: none is empty, each is of one kind, and neighbours are of two. -/
structure IsCut (text : List Char) (pieces : List (List Char)) : Prop where
  flatten_eq : pieces.flatten = text
  ne_nil : ∀ piece ∈ pieces, piece ≠ []
  uniform : ∀ piece ∈ pieces, ∀ c ∈ piece, ∀ d ∈ piece, sameKind c d = true
  maximal : pieces.IsChain fun piece next => ∀ c ∈ piece, ∀ d ∈ next, sameKind c d = false

/-- A piece, put into `defined(…)` if it is a run of identifier characters. -/
def wrapPiece (piece : List Char) : List Char :=
  if piece.all isIdentifierChar then "defined(".toList ++ piece ++ [')'] else piece

variable {text piece : List Char} {pieces : List (List Char)}

/-! ## One cut -/

theorem isChain_sameKind_iff : piece.IsChain (fun c d => sameKind c d) ↔
    ∀ c ∈ piece, ∀ d ∈ piece, sameKind c d = true := by
  have : IsEquiv Char fun c d => sameKind c d = true := by
    simp only [sameKind, beq_iff_eq]
    exact { refl := fun _ => rfl, symm := fun _ _ => Eq.symm, trans := fun _ _ _ => Eq.trans }
  rw [List.isChain_iff_pairwise]
  constructor
  · intro kind c hc d hd
    exact kind.forall_of_forall (fun _ _ => beq_self_eq_true _) hc hd
  · exact List.pairwise_of_forall_mem_list

/-- Two pieces of one kind each are of two kinds where they meet, or nowhere. -/
theorem kinds_iff {next : List Char}
    (uniform : ∀ c ∈ piece, ∀ d ∈ piece, sameKind c d = true)
    (uniform' : ∀ c ∈ next, ∀ d ∈ next, sameKind c d = true) (some : piece ≠ [])
    (some' : next ≠ []) : (∀ c ∈ piece, ∀ d ∈ next, sameKind c d = false) ↔
      ∃ ha hb, sameKind (piece.getLast ha) (next.head hb) = false := by
  constructor
  · intro differ
    exact ⟨some, some', differ _ (List.getLast_mem some) _ (List.head_mem some')⟩
  · rintro ⟨ha, hb, meet⟩ c hc d hd
    have left := uniform c hc _ (List.getLast_mem ha)
    have right := uniform' d hd _ (List.head_mem hb)
    simp only [sameKind, beq_iff_eq, beq_eq_false_iff_ne] at left right meet ⊢
    rwa [left, right]

/-- A text has one cut. -/
theorem isCut_iff : IsCut text pieces ↔ text.splitBy sameKind = pieces := by
  rw [List.splitBy_eq_iff]
  constructor
  · rintro ⟨flatten, nonempty, uniform, maximal⟩
    refine ⟨flatten.symm, fun h => nonempty [] h rfl,
      fun piece h => isChain_sameKind_iff.mpr (uniform piece h), ?_⟩
    refine maximal.imp_of_mem_imp fun a b ha hb => ?_
    exact (kinds_iff (uniform a ha) (uniform b hb) (nonempty a ha) (nonempty b hb)).mp
  · rintro ⟨flatten, nonempty, uniform, maximal⟩
    have some : ∀ piece ∈ pieces, piece ≠ [] := fun piece h none => nonempty (none ▸ h)
    have uniform := fun piece h => isChain_sameKind_iff.mp (uniform piece h)
    refine ⟨flatten.symm, some, uniform, ?_⟩
    refine maximal.imp_of_mem_imp fun a b ha hb => ?_
    exact (kinds_iff (uniform a ha) (uniform b hb) (some a ha) (some b hb)).mpr

/-! ## Wrapping from piece to piece -/

/-- A text and what comes after it are wrapped apart, if no name goes on from the one to the
other. -/
theorem wrapFrom_append {inside : Bool} {as bs : List Char}
    (apart : (∀ c ∈ bs.head?, isIdentifierChar c = false) ∨
      ((∀ c ∈ as.getLast?, isIdentifierChar c = false) ∧ (as = [] → inside = false))) :
    wrapFrom inside (as ++ bs) = wrapFrom inside as ++ wrapFrom false bs := by
  induction as generalizing inside with
  | nil =>
    cases inside with
    | false => rfl
    | true =>
      have outside := apart.resolve_right fun h => Bool.noConfusion (h.2 rfl)
      cases bs with
      | nil => rfl
      | cons c bs =>
        have hc := outside c rfl
        simp only [List.nil_append, wrapFrom, hc, if_true, List.singleton_append]
  | cons c as ih =>
    have rest : wrapFrom (isIdentifierChar c) (as ++ bs) =
        wrapFrom (isIdentifierChar c) as ++ wrapFrom false bs := by
      refine ih (apart.imp_right fun h => ⟨fun d hd => ?last, ?single⟩)
      case last =>
        refine h.1 d ?_
        rw [List.getLast?_cons, Option.mem_def.mp hd]
        rfl
      case single =>
        rintro rfl
        exact h.1 c rfl
    cases inside <;> cases hc : isIdentifierChar c <;> rw [hc] at rest <;>
      simp only [List.cons_append, wrapFrom, hc, rest, List.append_assoc]

theorem wrapFrom_of_no_name (h : ∀ c ∈ piece, isIdentifierChar c = false) :
    wrapFrom false piece = piece := by
  induction piece with
  | nil => rfl
  | cons c piece ih =>
    obtain ⟨hc, others⟩ := List.forall_mem_cons.mp h
    rw [wrapFrom_cons hc, ih others]

/-- A name by itself. -/
theorem wrapFrom_of_name (some : piece ≠ []) (letters : ∀ c ∈ piece, isIdentifierChar c = true) :
    wrapFrom false piece = "defined(".toList ++ piece ++ [')'] := by
  obtain ⟨c, rest, rfl⟩ := List.exists_cons_of_ne_nil some
  obtain ⟨hc, others⟩ := List.forall_mem_cons.mp letters
  have copied : wrapFrom true (rest ++ []) = _ := wrapFrom_true others nofun
  rw [List.append_nil] at copied
  simp only [wrapFrom, hc, copied, List.append_assoc, List.cons_append]
  rfl

theorem wrapFrom_uniform (some : piece ≠ [])
    (uniform : ∀ c ∈ piece, ∀ d ∈ piece, sameKind c d = true) :
    wrapFrom false piece = wrapPiece piece := by
  have kind : ∀ c ∈ piece, isIdentifierChar c = isIdentifierChar (piece.head some) := fun c hc =>
    beq_iff_eq.mp (uniform c hc _ (List.head_mem some))
  unfold wrapPiece
  split
  case isTrue letters => exact wrapFrom_of_name some (List.all_eq_true.mp letters)
  case isFalse other =>
    refine wrapFrom_of_no_name fun c hc => ?_
    cases hkind : isIdentifierChar (piece.head some) with
    | true => exact absurd (List.all_eq_true.mpr fun d hd => (kind d hd).trans hkind) other
    | false => exact (kind c hc).trans hkind

/-- Where two pieces of a cut meet, no name goes on. -/
theorem IsCut.apart (cut : IsCut text (piece :: pieces)) :
    (∀ d ∈ pieces.flatten.head?, isIdentifierChar d = false) ∨
      ∀ c ∈ piece.getLast?, isIdentifierChar c = false := by
  rw [or_iff_not_imp_right]
  intro name d hd
  simp only [not_forall, Bool.not_eq_false] at name
  obtain ⟨c, hc, letter⟩ := name
  cases pieces with
  | nil => cases hd
  | cons next pieces =>
    obtain ⟨first, rest, rfl⟩ :=
      List.exists_cons_of_ne_nil (cut.ne_nil next (.tail _ List.mem_cons_self))
    obtain rfl : first = d := Option.some.inj hd
    have differ := (List.isChain_cons.mp cut.maximal).1 (first :: rest) rfl c
      (List.mem_of_getLast? hc) first List.mem_cons_self
    rw [sameKind, letter, beq_eq_false_iff_ne] at differ
    exact Bool.eq_false_iff.mpr differ.symm

theorem IsCut.tail (cut : IsCut text (piece :: pieces)) : IsCut pieces.flatten pieces where
  flatten_eq := rfl
  ne_nil := (List.forall_mem_cons.mp cut.ne_nil).2
  uniform := (List.forall_mem_cons.mp cut.uniform).2
  maximal := (List.isChain_cons.mp cut.maximal).2

/-- The pieces of a text are wrapped one by one. -/
theorem wrapFrom_eq_flatten (cut : IsCut text pieces) :
    wrapFrom false text = (pieces.map wrapPiece).flatten := by
  induction pieces generalizing text with
  | nil =>
    rw [← cut.flatten_eq]
    rfl
  | cons piece pieces ih =>
    have first : wrapFrom false piece = wrapPiece piece :=
      wrapFrom_uniform (cut.ne_nil piece List.mem_cons_self) (cut.uniform piece List.mem_cons_self)
    rw [← cut.flatten_eq, List.flatten_cons,
      wrapFrom_append (cut.apart.imp_right fun outside => ⟨outside, fun _ => rfl⟩), first,
      ih cut.tail, List.map_cons, List.flatten_cons]

/-- A text has one cut into the runs of identifier characters and what stands between them, and
wrapping puts each run into `defined(…)` and changes nothing else.  Texts that are wrapped alike are
the same.  Two texts are wrapped together as they are apart, if the first one does not end, or the
second one does not start, with an identifier character. -/
theorem wrapDefined_stretches :
    (∀ text : String, ∃ pieces, IsCut text.toList pieces ∧
      (∀ pieces', IsCut text.toList pieces' → pieces' = pieces) ∧
      (wrapDefined text).toList = (pieces.map wrapPiece).flatten) ∧
    Function.Injective wrapDefined ∧
    ∀ a b : String, ((∀ c ∈ a.toList.getLast?, isIdentifierChar c = false) ∨
        ∀ c ∈ b.toList.head?, isIdentifierChar c = false) →
      wrapDefined (a ++ b) = wrapDefined a ++ wrapDefined b := by
  refine ⟨fun text => ?cut, ?injective, fun a b apart => ?append⟩
  case cut =>
    have cut : IsCut text.toList (text.toList.splitBy sameKind) := isCut_iff.mpr rfl
    refine ⟨_, cut, fun pieces' cut' => (isCut_iff.mp cut').symm, ?_⟩
    rw [toList_wrapDefined]
    exact wrapFrom_eq_flatten cut
  case injective =>
    intro a b same
    rw [← String.toList_inj, ← bare_wrapDefined a, ← bare_wrapDefined b, same]
  case append =>
    rw [← String.toList_inj, String.toList_append, toList_wrapDefined, toList_wrapDefined,
      toList_wrapDefined, String.toList_append]
    exact wrapFrom_append (apart.symm.imp_right fun outside => ⟨outside, fun _ => rfl⟩)

/-- A name `defined` in front of a parenthesis is wrapped as any other. -/
theorem wrapDefined_stretches_sample :
    wrapDefined "!defined(B_1) é" = "!defined(defined)(defined(B_1)) é" ∧
      wrapDefined ("A =>" ++ "B") = wrapDefined "A =>" ++ wrapDefined "B" := by
  constructor
  · obtain ⟨pieces, -, unique, wrapped⟩ := wrapDefined_stretches.1 "!defined(B_1) é"
    have cut : IsCut "!defined(B_1) é".toList
        ["!".toList, "defined".toList, "(".toList, "B_1".toList, ") é".toList] :=
      isCut_iff.mpr (by decide)
    rw [← String.toList_inj, wrapped, ← unique _ cut]
    decide
  · have last : "A =>".toList.getLast? = some '>' := rfl
    refine wrapDefined_stretches.2.2 "A =>" "B" (.inl fun c hc => ?_)
    obtain rfl := Option.some.inj (last.symm.trans hc)
    decide

end ProductLine.Export
