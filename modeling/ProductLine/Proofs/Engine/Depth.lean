/- # Depth — the parentheses of an expression are balanced

The reader of an engine's answer knows nothing of the grammar: it counts
parentheses, and cuts wherever the count is zero.  What keeps the two
together is that a text of the grammar is `Balanced` (`balanced_of_derives`).
Only its parentheses matter for that, so the argument goes over the
parentheses of its tokens.

`Uncut` texts are those through which the splitting passes without a cut.
Inside a pair of parentheses every balanced text is of this kind.
-/
import ProductLine.Engine.Terms
import ProductLine.Proofs.Expr.Grammar
import ProductLine.Proofs.Expr.Lexis

namespace ProductLine

namespace Terms

variable {depth : Int} {as bs cs rest : List Char}

/-! ## Counting -/

/-- The depth after a text. -/
def depthAt (depth : Int) (cs : List Char) : Int :=
  cs.foldl depthAfter depth

@[simp] theorem depthAt_cons (depth : Int) (c : Char) (cs : List Char) :
    depthAt depth (c :: cs) = depthAt (depthAfter depth c) cs := rfl

@[simp] theorem depthAt_append (depth : Int) (as bs : List Char) :
    depthAt depth (as ++ bs) = depthAt (depthAt depth as) bs :=
  List.foldl_append

theorem depthAfter_add (depth k : Int) (c : Char) :
    depthAfter (depth + k) c = depthAfter depth c + k := by
  unfold depthAfter
  split <;> omega

theorem depthAt_add (depth k : Int) (cs : List Char) :
    depthAt (depth + k) cs = depthAt depth cs + k := by
  induction cs generalizing depth with
  | nil => rfl
  | cons c cs ih => rw [depthAt_cons, depthAfter_add, ih, depthAt_cons]

theorem staysOpen_append (depth : Int) (as bs : List Char) :
    staysOpen depth (as ++ bs) = (staysOpen depth as && staysOpen (depthAt depth as) bs) := by
  induction as generalizing depth with
  | nil => simp [staysOpen, depthAt]
  | cons c as ih => rw [List.cons_append, staysOpen, ih, staysOpen, depthAt_cons, Bool.and_assoc]

/-- A count that starts higher stays open as well. -/
theorem staysOpen_add {k : Int} (hk : 0 ≤ k) (h : staysOpen depth cs = true) :
    staysOpen (depth + k) cs = true := by
  induction cs generalizing depth with
  | nil => rfl
  | cons c cs ih =>
    rw [staysOpen, Bool.and_eq_true, decide_eq_true_eq] at h
    rw [staysOpen, depthAfter_add, Bool.and_eq_true, decide_eq_true_eq]
    exact ⟨by omega, ih h.2⟩

/-- Every parenthesis that closes one has been opened, and all are closed in the end. -/
structure Balanced (cs : List Char) : Prop where
  stays : staysOpen 0 cs = true
  closes : depthAt 0 cs = 0

theorem balanced_nil : Balanced [] := ⟨rfl, rfl⟩

theorem Balanced.append (ha : Balanced as) (hb : Balanced bs) : Balanced (as ++ bs) where
  stays := by rw [staysOpen_append, ha.stays, ha.closes, hb.stays, Bool.and_self]
  closes := by rw [depthAt_append, ha.closes, hb.closes]

theorem Balanced.depthAt (h : Balanced cs) (depth : Int) : Terms.depthAt depth cs = depth := by
  have shifted := depthAt_add 0 depth cs
  rwa [Int.zero_add, h.closes, Int.zero_add] at shifted

theorem Balanced.staysOpen (h : Balanced cs) (hd : 0 ≤ depth) :
    Terms.staysOpen depth cs = true := by
  have shifted := staysOpen_add hd h.stays
  rwa [Int.zero_add] at shifted

theorem Balanced.enclosed (h : Balanced cs) : Balanced ('(' :: (cs ++ [')'])) where
  stays := by
    have inner : Terms.staysOpen 1 cs = true := h.staysOpen (by decide)
    show (decide ((0 : Int) ≤ 1) && Terms.staysOpen 1 (cs ++ [')'])) = true
    rw [staysOpen_append, inner, h.depthAt]
    rfl
  closes := by
    show Terms.depthAt 1 (cs ++ [')']) = 0
    rw [depthAt_append, h.depthAt]
    rfl

/-! ## Parentheses alone -/

/-- The character is a parenthesis. -/
def isParen (c : Char) : Bool :=
  c == '(' || c == ')'

theorem depthAfter_of_not_isParen {c : Char} (h : isParen c = false) (depth : Int) :
    depthAfter depth c = depth := by
  unfold depthAfter
  split
  · cases h
  · cases h
  · rfl

theorem depthAt_filter_isParen (depth : Int) (cs : List Char) :
    depthAt depth (cs.filter isParen) = depthAt depth cs := by
  induction cs generalizing depth with
  | nil => rfl
  | cons c cs ih =>
    cases hc : isParen c with
    | true => rw [List.filter_cons_of_pos hc, depthAt_cons, depthAt_cons, ih]
    | false =>
      rw [List.filter_cons_of_neg (by simp [hc]), depthAt_cons, depthAfter_of_not_isParen hc, ih]

theorem staysOpen_filter_isParen (hd : 0 ≤ depth) (cs : List Char) :
    staysOpen depth (cs.filter isParen) = staysOpen depth cs := by
  induction cs generalizing depth with
  | nil => rfl
  | cons c cs ih =>
    cases hc : isParen c with
    | true =>
      rw [List.filter_cons_of_pos hc, staysOpen, staysOpen]
      by_cases low : 0 ≤ depthAfter depth c
      · rw [ih low]
      · rw [decide_eq_false low, Bool.false_and, Bool.false_and]
    | false =>
      rw [List.filter_cons_of_neg (by simp [hc]), staysOpen, depthAfter_of_not_isParen hc,
        decide_eq_true hd, Bool.true_and, ih hd]

/-- Whether a text is balanced depends on its parentheses. -/
theorem balanced_filter_isParen_iff : Balanced (cs.filter isParen) ↔ Balanced cs := by
  constructor
  · rintro ⟨stays, closes⟩
    rw [staysOpen_filter_isParen (Int.le_refl 0)] at stays
    rw [depthAt_filter_isParen] at closes
    exact ⟨stays, closes⟩
  · rintro ⟨stays, closes⟩
    rw [← staysOpen_filter_isParen (Int.le_refl 0)] at stays
    rw [← depthAt_filter_isParen] at closes
    exact ⟨stays, closes⟩

theorem balanced_of_no_parens (h : ∀ c ∈ cs, isParen c = false) : Balanced cs := by
  rw [← balanced_filter_isParen_iff, List.filter_eq_nil_iff.mpr (by simpa using h)]
  exact balanced_nil

end Terms

/-! ## The grammar -/

open Terms

/-- The parenthesis that a token is. -/
def Token.paren? : Token → Option Char
  | opening => some '('
  | closing => some ')'
  | _ => none

theorem isParen_of_isIdentifierChar {c : Char} (h : isIdentifierChar c = true) :
    isParen c = false := by
  rw [Bool.eq_false_iff]
  intro paren
  rw [isParen, Bool.or_eq_true, beq_iff_eq, beq_iff_eq] at paren
  rcases paren with rfl | rfl <;> exact absurd h (by decide)

theorem isParen_of_isBlank {c : Char} (h : Text.isBlank c = true) : isParen c = false := by
  rw [Bool.eq_false_iff]
  intro paren
  rw [isParen, Bool.or_eq_true, beq_iff_eq, beq_iff_eq] at paren
  rcases paren with rfl | rfl <;> exact absurd h (by decide)

/-- A text has the parentheses of its tokens. -/
theorem Lexes.parens {cs : List Char} {ts : List Token} (h : Lexes cs ts) :
    cs.filter isParen = ts.filterMap Token.paren? := by
  induction h with
  | nil => rfl
  | blank hblank _ ih =>
    rw [List.filter_cons_of_neg (by simp [isParen_of_isBlank hblank]), ih]
  | @symbol c t cs ts hspells _ ih =>
    rw [List.filter_cons, ih, List.filterMap_cons]
    cases hspells <;> rfl
  | @name f cs ts _ _ ih =>
    have letters : f.name.toList.filter isParen = [] := by
      refine List.filter_eq_nil_iff.mpr fun c hc => ?_
      simp [isParen_of_isIdentifierChar (Feature.isIdentifierChar_of_mem_name hc)]
    rw [List.filter_append, letters, ih, List.nil_append]
    exact (List.filterMap_cons_none rfl).symm

/-- The tokens of every phrase have balanced parentheses. -/
theorem Expr.Derives.balanced {k : Expr.Phrase} {n : Nat} {ts : List Token} {e : Expr}
    (h : Expr.Derives k n ts e) : Balanced (ts.filterMap Token.paren?) := by
  induction h with
  | feature => exact balanced_nil
  | not _ ih => exact ih
  | enclosed _ ih =>
    have outer := ih.enclosed
    simpa [Token.paren?] using outer
  | chain _ _ ih ihTail =>
    rw [List.filterMap_append]
    exact ih.append ihTail
  | stop => exact balanced_nil
  | @more op _ _ ts us _ _ _ _ _ ih ihTail =>
    have operator : op.token.paren? = none := by cases op <;> rfl
    rw [List.filterMap_cons_none operator, List.filterMap_append]
    exact ih.append ihTail

/-- A text of the grammar has balanced parentheses. -/
theorem Expr.balanced_of_derives {k : Expr.Phrase} {n : Nat} {cs : List Char} {ts : List Token}
    {e : Expr} (hlexes : Lexes cs ts) (h : Expr.Derives k n ts e) : Balanced cs := by
  rw [← balanced_filter_isParen_iff, hlexes.parens]
  exact h.balanced

/-! ## Where the splitting cuts -/

namespace Terms

variable {depth : Int} {as bs cs rest : List Char}

/-- There is no cut in a text that starts at the depth. -/
def Uncut (depth : Int) : List Char → Prop
  | [] => True
  | c :: cs => ¬ (c = '&' ∧ depth = 0) ∧ Uncut (depthAfter depth c) cs

theorem Uncut.append (ha : Uncut depth as) (hb : Uncut (depthAt depth as) bs) :
    Uncut depth (as ++ bs) := by
  induction as generalizing depth with
  | nil => exact hb
  | cons c as ih => exact ⟨ha.1, ih ha.2 hb⟩

theorem uncut_of_staysOpen (hd : 0 ≤ depth) (h : staysOpen depth cs = true) :
    Uncut (depth + 1) cs := by
  induction cs generalizing depth with
  | nil => trivial
  | cons c cs ih =>
    rw [staysOpen, Bool.and_eq_true, decide_eq_true_eq] at h
    refine ⟨by omega, ?_⟩
    rw [depthAfter_add]
    exact ih h.1 h.2

theorem splitConjuncts_ne_nil (depth : Int) (cs : List Char) : splitConjuncts depth cs ≠ [] := by
  cases cs with
  | nil => exact List.cons_ne_nil _ _
  | cons c cs =>
    rw [splitConjuncts]
    split
    · exact List.cons_ne_nil _ _
    · split <;> exact List.cons_ne_nil _ _

/-- A text without a cut goes to the first piece of what follows it. -/
theorem splitConjuncts_append (h : Uncut depth cs) (rest : List Char) :
    splitConjuncts depth (cs ++ rest) =
      (splitConjuncts (depthAt depth cs) rest).modifyHead (cs ++ ·) := by
  induction cs generalizing depth with
  | nil => cases hrest : splitConjuncts depth rest <;> simp [depthAt, hrest]
  | cons c cs ih =>
    rw [List.cons_append, splitConjuncts, if_neg h.1, ih h.2, depthAt_cons]
    cases hrest : splitConjuncts (depthAt (depthAfter depth c) cs) rest with
    | nil => exact absurd hrest (splitConjuncts_ne_nil _ _)
    | cons piece pieces => rfl

end Terms

end ProductLine
