/- # Grammatical sequences — depth is their only fault

A sequence that derives from the grammar may still be refused, because the
reader has two bounds and the grammar has none.  There is no other reason:
whatever its levels are, the reader of a class comes to the end of a phrase
of that class, with its tree, or it stops at a place that is too deep
(`Derives.reached`).  The reader is unfolded here for its faults, as
`ProductLine.Proofs.Expr.Reading` unfolds it for its results; each lemma
joins the outcomes of the parts into that of the whole.
-/
import ProductLine.Proofs.Expr.Reading

namespace ProductLine.Expr

/-- Reading stops at a place that is too deep. -/
def TooDeep {α : Type} (x : Except SyntaxFault α) : Prop :=
  ∃ column, x = .error ⟨column, .tooDeep⟩

/-- The reader hands back the tree and the tokens that remain, unless it stops at its depth. -/
def Reaches {P : Measured × List Placed → Prop} (x : Except SyntaxFault { r // P r })
    (a : Measured) (rest : List Placed) : Prop :=
  Gives x a rest ∨ TooDeep x

variable {op : Junction} {item : Reader} {a left right body : Measured} {t : Placed}
  {ts mid rest : List Placed} {endColumn levels : Nat}

/-! ## One reader after the other -/

theorem Measured.bounded_or_tooDeep (column : Nat) (a : Measured) :
    (a.bounded column = .ok a ∧ a.tree.height ≤ maxDepth) ∨
      a.bounded column = .error ⟨column, .tooDeep⟩ := by
  by_cases low : a.tree.height ≤ maxDepth
  · exact .inl ⟨bounded_eq_ok_iff.2 ⟨rfl, low⟩, low⟩
  · rw [← a.height_eq] at low
    exact .inr (if_pos (Nat.lt_of_not_le low))

theorem reaches_chainFrom_stop (stops : ∀ t ∈ ts.head?, t.token ≠ op.token) :
    Reaches (chainFrom op item left ts) left ts := by
  left
  cases ts with
  | nil => exact gives_chainFrom_nil.2 ⟨rfl, rfl⟩
  | cons t ts => exact (gives_chainFrom_stop (stops t rfl)).2 ⟨rfl, rfl⟩

theorem reaches_chainFrom_more (ht : t.token = op.token) (operand : Reaches (item ts) right mid)
    (tail : Reaches (chainFrom op item (op.join left right) mid) a rest) :
    Reaches (chainFrom op item left (t :: ts)) a rest := by
  rcases operand with operand | ⟨column, high⟩
  case inr =>
    refine .inr ⟨column, ?_⟩
    rw [chainFrom, if_pos ht, high]
  obtain ⟨shorter, hitem⟩ := operand
  rcases (op.join left right).bounded_or_tooDeep t.column with ⟨joined, low⟩ | high
  case inr =>
    refine .inr ⟨t.column, ?_⟩
    rw [chainFrom, if_pos ht, hitem]
    simp only [high]
  rcases tail with tail | ⟨column, high⟩
  · exact .inl ((gives_chainFrom_more ht).2 ⟨right, mid, ⟨shorter, hitem⟩, low, tail⟩)
  · refine .inr ⟨column, ?_⟩
    rw [chainFrom, if_pos ht, hitem]
    simp only [joined, high]

theorem reaches_chain (operand : Reaches (item ts) left mid)
    (tail : Reaches (chainFrom op item left mid) a rest) : Reaches (chain op item ts) a rest := by
  rcases operand with operand | ⟨column, high⟩
  case inr =>
    refine .inr ⟨column, ?_⟩
    rw [chain, high]
  rcases tail with tail | ⟨column, high⟩
  · exact .inl (gives_chain_iff.2 ⟨left, mid, operand, tail⟩)
  · obtain ⟨shorter, hitem⟩ := operand
    refine .inr ⟨column, ?_⟩
    rw [chain, hitem]
    simp only [high]

theorem reaches_negation (column : Nat) (operand : Reaches (item ts) body rest) :
    Reaches (negation column item ts) body.not rest := by
  rcases operand with operand | ⟨column', high⟩
  case inr =>
    refine .inr ⟨column', ?_⟩
    rw [negation, high]
  rcases body.not.bounded_or_tooDeep column with ⟨-, low⟩ | high
  · exact .inl (gives_negation_iff.2 ⟨body, operand, rfl, low⟩)
  · obtain ⟨shorter, hitem⟩ := operand
    refine .inr ⟨column, ?_⟩
    rw [negation, hitem]
    simp only [high]

theorem reaches_enclosed (column : Nat) (ht : t.token = .closing)
    (inner : Reaches (disjunction item ts) a (t :: rest)) :
    Reaches (enclosed column item ts) a rest := by
  rcases inner with inner | ⟨column', high⟩
  · exact .inl (gives_enclosed_iff.2 ⟨t, ht, inner⟩)
  · refine .inr ⟨column', ?_⟩
    rw [enclosed, high]

/-- A level that is not there is a fault of depth as well. -/
theorem reaches_factor_not (ht : t.token = .not)
    (operand : ∀ l, Reaches (factor endColumn l ts) body rest) :
    Reaches (factor endColumn levels (t :: ts)) body.not rest := by
  obtain ⟨column, token⟩ := t
  obtain rfl : token = .not := ht
  cases levels with
  | zero => exact .inr ⟨column, by rw [factor]⟩
  | succ l =>
    rcases reaches_negation column (operand l) with read | ⟨column', high⟩
    · exact .inl (gives_factor_cons.2 (.inr (.inl ⟨rfl, l, rfl, read⟩)))
    · exact .inr ⟨column', by rw [factor]; simp only [high]⟩

theorem reaches_factor_opening {q : Placed} (ht : t.token = .opening) (hq : q.token = .closing)
    (inner : ∀ l, Reaches (disjunction (factor endColumn l) ts) a (q :: rest)) :
    Reaches (factor endColumn levels (t :: ts)) a rest := by
  obtain ⟨column, token⟩ := t
  obtain rfl : token = .opening := ht
  cases levels with
  | zero => exact .inr ⟨column, by rw [factor]⟩
  | succ l =>
    rcases reaches_enclosed column hq (inner l) with read | ⟨column', high⟩
    · exact .inl (gives_factor_cons.2 (.inr (.inr ⟨rfl, l, rfl, read⟩)))
    · exact .inr ⟨column', by rw [factor]; simp only [high]⟩

/-! ## Along a derivation -/

/-- The reader of what stands between two operators. -/
def Junction.reader (endColumn levels : Nat) : Junction → Reader
  | and => factor endColumn levels
  | or => chain .and (factor endColumn levels)

/-- The reader of the class reaches the end of a phrase. -/
def Phrase.Reached (endColumn levels : Nat) (ts : List Placed) (e : Expr) (rest : List Placed) :
    Phrase → Prop
  | factor => Reaches (Expr.factor endColumn levels ts) (.of e) rest
  | chain op => Reaches (Expr.chain op (op.reader endColumn levels) ts) (.of e) rest
  | tail op left => Reaches (chainFrom op (op.reader endColumn levels) (.of left) ts) (.of e) rest

theorem Phrase.reached_operand_iff {e : Expr} : op.operand.Reached endColumn levels ts e rest ↔
    Reaches (op.reader endColumn levels ts) (.of e) rest := by
  cases op <;> rfl

theorem Junction.join_of (op : Junction) (a b : Expr) :
    op.join (.of a) (.of b) = .of (op.apply a b) :=
  Measured.tree_inj.1 (op.tree_join _ _)

/-- Whatever the levels, reading a grammatical phrase reaches its end or stops at its depth. -/
theorem Derives.reached {k : Phrase} {n : Nat} {tokens : List Token} {e : Expr}
    (h : Derives k n tokens e) {used rest : List Placed} (hused : used.map Placed.token = tokens)
    (ends : k.Ends (rest.map Placed.token)) (levels : Nat) :
    k.Reached endColumn levels (used ++ rest) e rest := by
  induction h generalizing used rest levels with
  | feature f =>
    obtain ⟨t, rfl, ht⟩ := List.map_eq_singleton_iff.1 hused
    exact .inl (gives_factor_cons.2 (.inl ⟨f, ht, rfl, rfl⟩))
  | not _ ih =>
    obtain ⟨t, used, rfl, ht, hused⟩ := List.map_eq_cons_iff.1 hused
    exact reaches_factor_not ht (ih hused ends)
  | enclosed _ ih =>
    obtain ⟨t, used, rfl, ht, hused⟩ := List.map_eq_cons_iff.1 hused
    obtain ⟨inner, last, rfl, hinner, hlast⟩ := List.map_eq_append_iff.1 hused
    obtain ⟨q, rfl, hq⟩ := List.map_eq_singleton_iff.1 hlast
    have closes : Phrase.expr.Ends ((q :: rest).map Placed.token) := by
      rw [List.map_cons, hq]
      exact Phrase.ends_closing _ _
    rw [List.cons_append, List.append_assoc]
    exact reaches_factor_opening ht hq (ih hinner closes)
  | chain first tail ih ihTail =>
    obtain ⟨used, mid, rfl, hused, hmid⟩ := List.map_eq_append_iff.1 hused
    rw [List.append_assoc]
    have follows := tail.ends_operand ends
    rw [← hmid, ← List.map_append] at follows
    exact reaches_chain (Phrase.reached_operand_iff.1 (ih hused follows levels))
      (ihTail hmid (Phrase.ends_tail_iff.2 ends) levels)
  | stop op left =>
    obtain rfl := List.map_eq_nil_iff.1 hused
    rw [List.nil_append]
    refine reaches_chainFrom_stop fun t ht heq => ?_
    have other := (Phrase.ends_chain_iff.1 (Phrase.ends_tail_iff.1 ends)).1
    rw [List.head?_map, Option.mem_def.1 ht] at other
    exact other (congrArg some heq)
  | more first tail ih ihTail =>
    obtain ⟨t, used, rfl, ht, hused⟩ := List.map_eq_cons_iff.1 hused
    obtain ⟨used, mid, rfl, hused, hmid⟩ := List.map_eq_append_iff.1 hused
    have ends := Phrase.ends_tail_iff.1 ends
    have follows := tail.ends_operand ends
    rw [← hmid, ← List.map_append] at follows
    rw [List.cons_append, List.append_assoc]
    refine reaches_chainFrom_more ht (Phrase.reached_operand_iff.1 (ih hused follows levels)) ?_
    rw [Junction.join_of]
    exact ihTail hmid (Phrase.ends_tail_iff.2 ends) levels

theorem Derives.ne_nil {k : Phrase} {n : Nat} {tokens : List Token} {e : Expr}
    (h : Derives k n tokens e) (hk : ∀ op left, k ≠ .tail op left) : tokens ≠ [] := by
  induction h with
  | feature | not | enclosed => exact List.cons_ne_nil _ _
  | @chain op _ _ _ _ _ _ _ _ ih _ =>
    have first := ih (by cases op <;> exact fun _ _ => nofun)
    exact List.append_ne_nil_of_left_ne_nil first _
  | stop op left | more => exact absurd rfl (hk _ _)

/-- A grammatical sequence of tokens is read, or refused for its depth. -/
theorem ofTokens_of_derives {ts : List Placed} {n : Nat} {e : Expr}
    (h : Derives .expr n (ts.map Placed.token) e) :
    ofTokens endColumn ts = .ok e ∨ TooDeep (ofTokens endColumn ts) := by
  have read : Phrase.expr.Reached endColumn maxDepth (ts ++ []) e [] :=
    h.reached rfl (Phrase.ends_nil _) maxDepth
  have nonempty : ts ≠ [] := by
    rintro rfl
    exact h.ne_nil (fun _ _ => nofun) rfl
  rw [List.append_nil] at read
  rw [ofTokens, if_neg (by simpa using nonempty)]
  rcases read with ⟨shorter, hread⟩ | ⟨column, high⟩
  · left
    change disjunction (factor endColumn maxDepth) ts = _ at hread
    rw [hread]
    rfl
  · right
    change disjunction (factor endColumn maxDepth) ts = _ at high
    rw [high]
    exact ⟨column, rfl⟩

/-- A text that spells a grammatical sequence is read, or refused for its depth. -/
theorem ofChars_of_derives {cs : List Char} {tokens : List Token} {n : Nat} {e : Expr}
    (hlexes : Lexes cs tokens) (h : Derives .expr n tokens e) :
    ofChars cs = .ok e ∨ TooDeep (ofChars cs) := by
  obtain ⟨placed, hscan, rfl⟩ := scan_of_lexes hlexes 1
  rw [ofChars, hscan]
  exact ofTokens_of_derives h

end ProductLine.Expr
