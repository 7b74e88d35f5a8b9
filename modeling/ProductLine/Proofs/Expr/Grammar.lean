/- # The grammar — derivations, and why a sequence has one tree

    expr   := term ('|' term)*
    term   := factor ('&' factor)*
    factor := '!' factor | '(' expr ')' | feature

`Derives` is this grammar, rule for rule.  The two chains differ in their
operator alone and are one class; the tail of a chain carries the tree of
what stands to its left, which is how an operator comes to associate to the
left.  A derivation also counts its nesting: the largest number of `!`
operands and open parentheses around one place.

The grammar is unambiguous (`Derives.unique`).  Nothing here is limited in
height or nesting, so this holds of every sequence of tokens and not only
of those that the reader accepts.
-/
import ProductLine.Expr.Read

namespace ProductLine.Expr

/-- The syntactic classes. -/
inductive Phrase where
  | factor
  | chain (op : Junction)
  | tail (op : Junction) (left : Expr)

namespace Junction

/-- The tree of the operator and its two operands. -/
def apply : Junction → Expr → Expr → Expr
  | and => Expr.and
  | or => Expr.or

/-- What stands between two operators of a chain. -/
def operand : Junction → Phrase
  | and => .factor
  | or => .chain and

end Junction

/-- The class of whole expressions. -/
abbrev Phrase.expr : Phrase := .chain .or

/-- The tokens derive from the class, as that tree and with that nesting. -/
inductive Derives : Phrase → Nat → List Token → Expr → Prop where
  | feature (f : Feature) : Derives .factor 0 [.feature f] (.var f)
  | not {n : Nat} {ts : List Token} {e : Expr} :
      Derives .factor n ts e → Derives .factor (n + 1) (.not :: ts) (.not e)
  | enclosed {n : Nat} {ts : List Token} {e : Expr} :
      Derives .expr n ts e → Derives .factor (n + 1) (.opening :: (ts ++ [.closing])) e
  | chain {op : Junction} {m n : Nat} {ts us : List Token} {left e : Expr} :
      Derives op.operand m ts left → Derives (.tail op left) n us e →
      Derives (.chain op) (max m n) (ts ++ us) e
  | stop (op : Junction) (left : Expr) : Derives (.tail op left) 0 [] left
  | more {op : Junction} {m n : Nat} {ts us : List Token} {left right e : Expr} :
      Derives op.operand m ts right → Derives (.tail op (op.apply left right)) n us e →
      Derives (.tail op left) (max m n) (op.token :: (ts ++ us)) e

/-! ## What may follow a phrase -/

/-- The operators that a phrase of the class would go on with. -/
def Phrase.operators : Phrase → List Token
  | factor => []
  | chain .and | tail .and _ => [.and]
  | chain .or | tail .or _ => [.or, .and]

/-- The tokens do not go on with the phrase before them. -/
def Phrase.Ends (k : Phrase) (rest : List Token) : Prop :=
  ∀ t ∈ rest.head?, t ∉ k.operators

namespace Phrase

theorem ends_factor (rest : List Token) : factor.Ends rest := by
  simp [Ends, operators]

theorem ends_nil (k : Phrase) : k.Ends [] := by
  simp [Ends]

theorem ends_closing (k : Phrase) (rest : List Token) : k.Ends (.closing :: rest) := by
  rcases k with _ | ⟨_ | _⟩ | ⟨_ | _, _⟩ <;> simp [Ends, operators]

/-- A tail and its chain go on with the same operators. -/
theorem ends_tail_iff {op : Junction} {left : Expr} {rest : List Token} :
    (tail op left).Ends rest ↔ (chain op).Ends rest := by
  cases op <;> rfl

/-- A chain goes on with its own operator and with those of its operands. -/
theorem ends_chain_iff {op : Junction} {rest : List Token} :
    (chain op).Ends rest ↔ rest.head? ≠ some op.token ∧ op.operand.Ends rest := by
  cases op <;> cases rest <;>
    simp [Ends, operators, Junction.operand, Junction.token]

/-- An operand ends where the operator of its chain comes next. -/
theorem ends_operand_token (op : Junction) (rest : List Token) :
    op.operand.Ends (op.token :: rest) := by
  cases op <;> simp [Ends, operators, Junction.operand, Junction.token]

end Phrase

/-- An operand ends where a tail of its chain begins, also where that tail is empty. -/
theorem Derives.ends_operand {op : Junction} {left e : Expr} {n : Nat} {ts rest : List Token}
    (h : Derives (.tail op left) n ts e) (ends : (Phrase.chain op).Ends rest) :
    op.operand.Ends (ts ++ rest) := by
  cases h with
  | stop => exact (Phrase.ends_chain_iff.1 ends).2
  | more => exact Phrase.ends_operand_token op _

/-! ## One tree -/

/-- Two derivations that start at the same place and end where their class may end are the same:
they take the same tokens and have the same tree and the same nesting. -/
theorem Derives.prefix_unique {k : Phrase} {n n' : Nat} {ts ts' rest rest' : List Token}
    {e e' : Expr} (h : Derives k n ts e) (h' : Derives k n' ts' e')
    (same : ts ++ rest = ts' ++ rest') (ends : k.Ends rest) (ends' : k.Ends rest') :
    ts = ts' ∧ e = e' ∧ n = n' := by
  induction h generalizing n' ts' e' rest rest' with
  | feature f =>
    cases h' with
    | feature g =>
      injection same with head
      injection head with head
      subst head
      exact ⟨rfl, rfl, rfl⟩
    | not => injection same with head; cases head
    | enclosed => injection same with head; cases head
  | not _ ih =>
    cases h' with
    | feature => injection same with head; cases head
    | not h' =>
      injection same with _ same
      obtain ⟨rfl, rfl, rfl⟩ := ih h' same ends ends'
      exact ⟨rfl, rfl, rfl⟩
    | enclosed => injection same with head; cases head
  | enclosed _ ih =>
    cases h' with
    | feature => injection same with head; cases head
    | not => injection same with head; cases head
    | enclosed h' =>
      simp only [List.cons_append, List.append_assoc, List.cons.injEq, true_and] at same
      obtain ⟨rfl, rfl, rfl⟩ :=
        ih h' same (Phrase.ends_closing _ _) (Phrase.ends_closing _ _)
      exact ⟨rfl, rfl, rfl⟩
  | chain _ tail ih ihTail =>
    cases h' with
    | chain first' tail' =>
      rw [List.append_assoc, List.append_assoc] at same
      obtain ⟨rfl, rfl, rfl⟩ := ih first' same (tail.ends_operand ends) (tail'.ends_operand ends')
      obtain ⟨rfl, rfl, rfl⟩ := ihTail tail' (List.append_cancel_left same)
        (Phrase.ends_tail_iff.2 ends) (Phrase.ends_tail_iff.2 ends')
      exact ⟨rfl, rfl, rfl⟩
  | stop op left =>
    cases h' with
    | stop => exact ⟨rfl, rfl, rfl⟩
    | more =>
      -- the operator is what may not follow a tail
      have head : rest.head? = some op.token := by
        rw [List.nil_append] at same
        rw [same]
        rfl
      exact absurd head (Phrase.ends_chain_iff.1 (Phrase.ends_tail_iff.1 ends)).1
  | @more op m n ts us left right e _ tail ih ihTail =>
    cases h' with
    | stop =>
      have head : rest'.head? = some op.token := by
        rw [List.nil_append] at same
        rw [← same]
        rfl
      exact absurd head (Phrase.ends_chain_iff.1 (Phrase.ends_tail_iff.1 ends')).1
    | more right' tail' =>
      simp only [List.cons_append, List.append_assoc, List.cons.injEq, true_and] at same
      have ends := Phrase.ends_tail_iff.1 ends
      have ends' := Phrase.ends_tail_iff.1 ends'
      obtain ⟨rfl, rfl, rfl⟩ := ih right' same (tail.ends_operand ends) (tail'.ends_operand ends')
      obtain ⟨rfl, rfl, rfl⟩ := ihTail tail' (List.append_cancel_left same)
        (Phrase.ends_tail_iff.2 ends) (Phrase.ends_tail_iff.2 ends')
      exact ⟨rfl, rfl, rfl⟩

/-- A sequence of tokens has at most one tree in a class, with one nesting. -/
theorem Derives.unique {k : Phrase} {n n' : Nat} {ts : List Token} {e e' : Expr}
    (h : Derives k n ts e) (h' : Derives k n' ts e') : e = e' ∧ n = n' :=
  (h.prefix_unique h' rfl k.ends_nil k.ends_nil).2

/-! ## Heights -/

theorem height_apply (op : Junction) (a b : Expr) :
    (op.apply a b).height = max a.height b.height + 1 := by
  cases op <;> rfl

/-- The tail of a chain only adds to the tree that stands to its left. -/
theorem Derives.height_le {op : Junction} {left e : Expr} {n : Nat} {ts : List Token}
    (h : Derives (.tail op left) n ts e) : left.height ≤ e.height := by
  generalize hk : Phrase.tail op left = k at h
  induction h generalizing left with
  | stop => cases hk; exact Nat.le_refl _
  | more _ _ _ ih =>
    cases hk
    have := ih rfl
    rw [height_apply] at this
    omega
  | _ => cases hk

end ProductLine.Expr
