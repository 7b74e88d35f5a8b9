/- # What the reader accepts — the grammar, within two bounds

The reader and the grammar are unfolded side by side.  `Gives` says that a
reader hands back a tree and the tokens that remain; `Phrase.Takes` says the
same of a derivation, with both bounds and with what may follow.  Each class
has one lemma on either side, in the same shape, and the two agree by
induction: along a chain on the tokens that are left, and on the levels for
a factor (`exact_factor`).

The height is checked by the reader after every operator and by `Takes` for
the whole tree only.  That comes to the same because no rule of the grammar
makes a tree lower than its parts.
-/
import ProductLine.Proofs.Expr.Grammar
import ProductLine.Proofs.Expr.Lexis

namespace ProductLine.Expr

/-! ## Trees with their heights -/

namespace Measured

/-- The tree with its height. -/
def of (e : Expr) : Measured := ⟨e, e.height, rfl⟩

theorem tree_inj {a b : Measured} : a.tree = b.tree ↔ a = b := by
  constructor
  · intro h
    obtain ⟨s, m, hm⟩ := a
    obtain ⟨t, n, hn⟩ := b
    cases h
    cases hm.trans hn.symm
    rfl
  · rintro rfl
    rfl

theorem bounded_eq_ok_iff {column : Nat} {a b : Measured} :
    a.bounded column = .ok b ↔ a = b ∧ a.tree.height ≤ maxDepth := by
  unfold bounded
  rw [a.height_eq]
  split
  case isTrue high =>
    constructor
    · intro h
      cases h
    · rintro ⟨_, low⟩
      omega
  case isFalse low =>
    constructor
    · intro h
      exact ⟨Except.ok.inj h, by omega⟩
    · rintro ⟨rfl, _⟩
      rfl

end Measured

theorem Junction.tree_join (op : Junction) (a b : Measured) :
    (op.join a b).tree = op.apply a.tree b.tree := by
  cases op <;> rfl

/-! ## The reader, unfolded -/

/-- The reader hands back the tree, and the tokens that remain. -/
def Gives {P : Measured × List Placed → Prop} (x : Except SyntaxFault { r // P r })
    (a : Measured) (rest : List Placed) : Prop :=
  ∃ h, x = .ok ⟨(a, rest), h⟩

variable {op : Junction} {item : Reader} {a left : Measured} {ts rest : List Placed}

theorem Gives.length_lt {x : Except SyntaxFault (ReadFrom ts)} (h : Gives x a rest) :
    rest.length < ts.length :=
  h.1

theorem gives_chainFrom_nil : Gives (chainFrom op item left []) a rest ↔ a = left ∧ rest = [] := by
  rw [chainFrom]
  constructor
  · rintro ⟨h, heq⟩
    cases heq
    exact ⟨rfl, rfl⟩
  · rintro ⟨rfl, rfl⟩
    exact ⟨_, rfl⟩

theorem gives_chainFrom_stop {t : Placed} (ht : t.token ≠ op.token) :
    Gives (chainFrom op item left (t :: ts)) a rest ↔ a = left ∧ rest = t :: ts := by
  rw [chainFrom, if_neg ht]
  constructor
  · rintro ⟨h, heq⟩
    cases heq
    exact ⟨rfl, rfl⟩
  · rintro ⟨rfl, rfl⟩
    exact ⟨_, rfl⟩

theorem gives_chainFrom_more {t : Placed} (ht : t.token = op.token) :
    Gives (chainFrom op item left (t :: ts)) a rest ↔ ∃ right mid, Gives (item ts) right mid ∧
      (op.join left right).tree.height ≤ maxDepth ∧
      Gives (chainFrom op item (op.join left right) mid) a rest := by
  rw [chainFrom, if_pos ht]
  constructor
  · rintro ⟨h, heq⟩
    split at heq
    · cases heq
    · rename_i right mid shorter hitem
      split at heq
      · cases heq
      · rename_i joined hjoined
        obtain ⟨rfl, low⟩ := Measured.bounded_eq_ok_iff.1 hjoined
        split at heq
        · cases heq
        · rename_i r hr hrec
          cases heq
          exact ⟨right, mid, ⟨shorter, hitem⟩, low, ⟨hr, hrec⟩⟩
  · rintro ⟨right, mid, ⟨shorter, hitem⟩, low, hr, hrec⟩
    simp only [hitem, Measured.bounded_eq_ok_iff.2 ⟨rfl, low⟩, hrec]
    exact ⟨_, rfl⟩

theorem gives_chain_iff : Gives (chain op item ts) a rest ↔ ∃ left mid, Gives (item ts) left mid ∧
    Gives (chainFrom op item left mid) a rest := by
  rw [chain]
  constructor
  · rintro ⟨h, heq⟩
    split at heq
    · cases heq
    · rename_i left mid shorter hitem
      split at heq
      · cases heq
      · rename_i r hr hrec
        cases heq
        exact ⟨left, mid, ⟨shorter, hitem⟩, hr, hrec⟩
  · rintro ⟨left, mid, ⟨shorter, hitem⟩, hr, hrec⟩
    simp only [hitem, hrec]
    exact ⟨_, rfl⟩

theorem gives_negation_iff {column : Nat} : Gives (negation column item ts) a rest ↔
    ∃ body, Gives (item ts) body rest ∧ a = body.not ∧ a.tree.height ≤ maxDepth := by
  rw [negation]
  constructor
  · rintro ⟨h, heq⟩
    split at heq
    · cases heq
    · rename_i body mid shorter hitem
      split at heq
      · cases heq
      · rename_i negated hnegated
        obtain ⟨rfl, low⟩ := Measured.bounded_eq_ok_iff.1 hnegated
        cases heq
        exact ⟨body, ⟨shorter, hitem⟩, rfl, low⟩
  · rintro ⟨body, ⟨shorter, hitem⟩, rfl, low⟩
    simp only [hitem, Measured.bounded_eq_ok_iff.2 ⟨rfl, low⟩]
    exact ⟨_, rfl⟩

theorem gives_enclosed_iff {column : Nat} : Gives (enclosed column item ts) a rest ↔
    ∃ t : Placed, t.token = .closing ∧ Gives (disjunction item ts) a (t :: rest) := by
  rw [enclosed]
  constructor
  · rintro ⟨h, heq⟩
    split at heq
    · cases heq
    · cases heq
    · rename_i inner t mid shorter hinner
      split at heq
      · rename_i ht
        cases heq
        exact ⟨t, ht, shorter, hinner⟩
      · cases heq
  · rintro ⟨t, ht, shorter, hinner⟩
    simp only [hinner, ht]
    exact ⟨_, rfl⟩

theorem not_gives_factor_nil {endColumn levels : Nat} :
    ¬ Gives (factor endColumn levels []) a rest := by
  rw [factor]
  rintro ⟨h, heq⟩
  cases heq

theorem gives_factor_cons {endColumn levels : Nat} {t : Placed} :
    Gives (factor endColumn levels (t :: ts)) a rest ↔
      (∃ f, t.token = .feature f ∧ a = .var f ∧ rest = ts) ∨
      (t.token = .not ∧ ∃ l, levels = l + 1 ∧
        Gives (negation t.column (factor endColumn l) ts) a rest) ∨
      (t.token = .opening ∧ ∃ l, levels = l + 1 ∧
        Gives (enclosed t.column (factor endColumn l) ts) a rest) := by
  obtain ⟨column, token⟩ := t
  constructor
  · rintro ⟨h, heq⟩
    cases token with
    | feature f =>
      rw [factor] at heq
      cases heq
      exact .inl ⟨f, rfl, rfl, rfl⟩
    | not =>
      rw [factor] at heq
      split at heq
      · cases heq
      · rename_i l
        dsimp only at heq
        split at heq
        · cases heq
        · rename_i r hr hread
          cases heq
          exact .inr (.inl ⟨rfl, l, rfl, hr, hread⟩)
    | opening =>
      rw [factor] at heq
      split at heq
      · cases heq
      · rename_i l
        dsimp only at heq
        split at heq
        · cases heq
        · rename_i r hr hread
          cases heq
          exact .inr (.inr ⟨rfl, l, rfl, hr, hread⟩)
    | and => simp [factor] at heq
    | or => simp [factor] at heq
    | closing => simp [factor] at heq
  · rintro (⟨f, rfl, rfl, rfl⟩ | ⟨rfl, l, rfl, hr, hread⟩ | ⟨rfl, l, rfl, hr, hread⟩)
    · exact ⟨Nat.lt_succ_self _, by rw [factor]⟩
    · exact ⟨Nat.lt_succ_of_lt hr, by rw [factor]; simp only [hread]⟩
    · exact ⟨Nat.lt_succ_of_lt hr, by rw [factor]; simp only [hread]⟩

/-! ## The grammar, unfolded in the same way -/

/-- A phrase of the class, within both bounds, takes the tokens up to those that remain, and these
do not go on with it. -/
def Phrase.Takes (k : Phrase) (levels : Nat) (ts : List Placed) (e : Expr) (rest : List Placed) :
    Prop :=
  ∃ n used, used ++ rest = ts ∧ Derives k n (used.map Placed.token) e ∧ n ≤ levels ∧
    e.height ≤ maxDepth ∧ k.Ends (rest.map Placed.token)

variable {levels : Nat} {e : Expr} {k : Phrase}

theorem Phrase.Takes.height_le (h : k.Takes levels ts e rest) : e.height ≤ maxDepth :=
  let ⟨_, _, _, _, _, low, _⟩ := h; low

theorem Phrase.Takes.ends (h : k.Takes levels ts e rest) : k.Ends (rest.map Placed.token) :=
  let ⟨_, _, _, _, _, _, ends⟩ := h; ends

theorem takes_chain_iff : (Phrase.chain op).Takes levels ts e rest ↔ ∃ left mid,
    op.operand.Takes levels ts left mid ∧ (Phrase.tail op left).Takes levels mid e rest := by
  constructor
  · rintro ⟨n, used, rfl, h, hn, low, ends⟩
    generalize hused : used.map Placed.token = tokens at h
    cases h with
    | @chain _ m n _ _ left _ first tail =>
      obtain ⟨used, mid, rfl, rfl, rfl⟩ := List.map_eq_append_iff.1 hused
      have := tail.height_le
      refine ⟨left, mid ++ rest, ⟨m, used, by simp, first, by omega, by omega, ?_⟩,
        ⟨n, mid, rfl, tail, by omega, low, Phrase.ends_tail_iff.2 ends⟩⟩
      rw [List.map_append]
      exact tail.ends_operand ends
  · rintro ⟨left, _, ⟨m, used, rfl, first, hm, _, _⟩, n, mid, rfl, tail, hn, low, ends⟩
    refine ⟨max m n, used ++ mid, by simp, ?_, by omega, low, Phrase.ends_tail_iff.1 ends⟩
    rw [List.map_append]
    exact .chain first tail

theorem takes_tail_nil {left : Expr} (low : left.height ≤ maxDepth) :
    (Phrase.tail op left).Takes levels [] e rest ↔ e = left ∧ rest = [] := by
  constructor
  · rintro ⟨n, used, hts, h, -, -, -⟩
    obtain ⟨rfl, rfl⟩ := List.append_eq_nil_iff.1 hts
    cases h
    exact ⟨rfl, rfl⟩
  · rintro ⟨rfl, rfl⟩
    exact ⟨0, [], rfl, .stop op e, Nat.zero_le _, low, Phrase.ends_nil _⟩

theorem takes_tail_stop {left : Expr} {t : Placed} (ht : t.token ≠ op.token)
    (low : left.height ≤ maxDepth) (ends : op.operand.Ends ((t :: ts).map Placed.token)) :
    (Phrase.tail op left).Takes levels (t :: ts) e rest ↔ e = left ∧ rest = t :: ts := by
  constructor
  · rintro ⟨n, used, hts, h, -, -, -⟩
    generalize hused : used.map Placed.token = tokens at h
    cases h with
    | stop =>
      obtain rfl := List.map_eq_nil_iff.1 hused
      exact ⟨rfl, hts⟩
    | more =>
      obtain ⟨t', used, rfl, ht', -⟩ := List.map_eq_cons_iff.1 hused
      injection hts with head
      rw [head] at ht'
      exact absurd ht' ht
  · rintro ⟨rfl, rfl⟩
    refine ⟨0, [], rfl, .stop op e, Nat.zero_le _, low, Phrase.ends_tail_iff.2 ?_⟩
    exact Phrase.ends_chain_iff.2 ⟨by simpa using ht, ends⟩

theorem takes_tail_more {left : Expr} {t : Placed} (ht : t.token = op.token) :
    (Phrase.tail op left).Takes levels (t :: ts) e rest ↔ ∃ right mid,
      op.operand.Takes levels ts right mid ∧ (op.apply left right).height ≤ maxDepth ∧
      (Phrase.tail op (op.apply left right)).Takes levels mid e rest := by
  constructor
  · rintro ⟨n, used, hts, h, hn, low, ends⟩
    generalize hused : used.map Placed.token = tokens at h
    cases h with
    | stop =>
      obtain rfl := List.map_eq_nil_iff.1 hused
      obtain rfl : rest = t :: ts := hts
      have := (Phrase.ends_chain_iff.1 (Phrase.ends_tail_iff.1 ends)).1
      exact absurd (congrArg some ht) this
    | @more _ m n _ _ _ right _ first tail =>
      obtain ⟨t', used, rfl, -, hused⟩ := List.map_eq_cons_iff.1 hused
      obtain ⟨used, mid, rfl, rfl, rfl⟩ := List.map_eq_append_iff.1 hused
      injection hts with _ hts
      subst hts
      have := tail.height_le
      have joined := height_apply op left right
      refine ⟨right, mid ++ rest, ⟨m, used, by simp, first, by omega, by omega, ?_⟩, by omega,
        ⟨n, mid, rfl, tail, by omega, low, Phrase.ends_tail_iff.2 (Phrase.ends_tail_iff.1 ends)⟩⟩
      rw [List.map_append]
      exact tail.ends_operand (Phrase.ends_tail_iff.1 ends)
  · rintro ⟨right, _, ⟨m, used, rfl, first, hm, _, _⟩, _, n, mid, rfl, tail, hn, low, ends⟩
    refine ⟨max m n, t :: (used ++ mid), by simp, ?_, by omega, low,
      Phrase.ends_tail_iff.2 (Phrase.ends_tail_iff.1 ends)⟩
    rw [List.map_cons, List.map_append, ht]
    exact .more first tail

theorem not_takes_factor_nil : ¬ Phrase.factor.Takes levels [] e rest := by
  rintro ⟨n, used, hts, h, -, -, -⟩
  obtain ⟨rfl, rfl⟩ := List.append_eq_nil_iff.1 hts
  cases h

theorem takes_factor_cons {t : Placed} : Phrase.factor.Takes levels (t :: ts) e rest ↔
    (∃ f, t.token = .feature f ∧ e = .var f ∧ rest = ts) ∨
    (t.token = .not ∧ ∃ l, levels = l + 1 ∧
      ∃ body, Phrase.factor.Takes l ts body rest ∧ e = .not body ∧ e.height ≤ maxDepth) ∨
    (t.token = .opening ∧ ∃ l, levels = l + 1 ∧
      ∃ q : Placed, q.token = .closing ∧ Phrase.expr.Takes l ts e (q :: rest)) := by
  constructor
  · rintro ⟨n, used, hts, h, hn, low, -⟩
    generalize hused : used.map Placed.token = tokens at h
    cases h with
    | feature f =>
      obtain ⟨t', rfl, ht⟩ := List.map_eq_singleton_iff.1 hused
      cases hts
      exact .inl ⟨f, ht, rfl, rfl⟩
    | @not n _ body h =>
      obtain ⟨t', used, rfl, ht, rfl⟩ := List.map_eq_cons_iff.1 hused
      cases hts
      obtain ⟨l, rfl⟩ : ∃ l, levels = l + 1 := ⟨levels - 1, by omega⟩
      have : body.not.height = body.height + 1 := rfl
      exact .inr (.inl ⟨ht, l, rfl, body, ⟨n, used, rfl, h, by omega, by omega,
        Phrase.ends_factor _⟩, rfl, low⟩)
    | @enclosed n _ _ h =>
      obtain ⟨t', used, rfl, ht, hused⟩ := List.map_eq_cons_iff.1 hused
      obtain ⟨used, last, rfl, rfl, hlast⟩ := List.map_eq_append_iff.1 hused
      obtain ⟨q, rfl, hq⟩ := List.map_eq_singleton_iff.1 hlast
      cases hts
      obtain ⟨l, rfl⟩ : ∃ l, levels = l + 1 := ⟨levels - 1, by omega⟩
      refine .inr (.inr ⟨ht, l, rfl, q, hq, n, used, by simp, h, by omega, low, ?_⟩)
      rw [List.map_cons, hq]
      exact Phrase.ends_closing _ _
  · rintro (⟨f, ht, rfl, rfl⟩ | ⟨ht, l, rfl, body, ⟨n, used, rfl, h, hn, -, ends⟩, rfl, low⟩ |
      ⟨ht, l, rfl, q, hq, n, used, rfl, h, hn, low, -⟩)
    · refine ⟨0, [t], rfl, ?_, Nat.zero_le _, ?_, Phrase.ends_factor _⟩
      · rw [List.map_cons, ht]
        exact .feature f
      · simp [height, maxDepth]
    · refine ⟨n + 1, t :: used, rfl, ?_, by omega, low, ends⟩
      rw [List.map_cons, ht]
      exact .not h
    · refine ⟨n + 1, t :: (used ++ [q]), by simp, ?_, by omega, low, Phrase.ends_factor _⟩
      rw [List.map_cons, List.map_append, List.map_cons, ht, hq]
      exact .enclosed h

/-! ## Both unfold to the same -/

/-- The reader hands back the phrases of the class within both bounds, and nothing else. -/
def Exact (k : Phrase) (levels : Nat) (item : Reader) : Prop :=
  ∀ ts a rest, Gives (item ts) a rest ↔ k.Takes levels ts a.tree rest

theorem exact_chainFrom {left : Measured} {ts : List Placed}
    (hitem : Exact op.operand levels item) (low : left.tree.height ≤ maxDepth)
    (ends : op.operand.Ends (ts.map Placed.token)) :
    Gives (chainFrom op item left ts) a rest ↔
      (Phrase.tail op left.tree).Takes levels ts a.tree rest := by
  match ts with
  | [] => rw [gives_chainFrom_nil, takes_tail_nil low, Measured.tree_inj]
  | t :: ts =>
    by_cases ht : t.token = op.token
    case neg => rw [gives_chainFrom_stop ht, takes_tail_stop ht low ends, Measured.tree_inj]
    case pos =>
      rw [gives_chainFrom_more ht, takes_tail_more ht]
      constructor
      · rintro ⟨right, mid, hright, low', hrest⟩
        have taken := (hitem _ _ _).1 hright
        have shorter := hright.length_lt
        rw [exact_chainFrom hitem low' taken.ends, Junction.tree_join] at hrest
        rw [Junction.tree_join] at low'
        exact ⟨right.tree, mid, taken, low', hrest⟩
      · rintro ⟨right, mid, taken, low', hrest⟩
        have hright := (hitem ts (.of right) mid).2 taken
        have shorter := hright.length_lt
        have low' : (op.join left (.of right)).tree.height ≤ maxDepth := by
          rwa [Junction.tree_join]
        change (Phrase.tail op (op.apply left.tree (Measured.of right).tree)).Takes _ _ _ _ at hrest
        rw [← Junction.tree_join, ← exact_chainFrom hitem low' taken.ends] at hrest
        exact ⟨.of right, mid, hright, low', hrest⟩
termination_by ts.length
decreasing_by all_goals simp only [List.length_cons]; omega

theorem exact_chain (hitem : Exact op.operand levels item) :
    Exact (.chain op) levels (chain op item) := by
  intro ts a rest
  rw [gives_chain_iff, takes_chain_iff]
  constructor
  · rintro ⟨left, mid, hleft, hrest⟩
    have taken := (hitem _ _ _).1 hleft
    exact ⟨left.tree, mid, taken, (exact_chainFrom hitem taken.height_le taken.ends).1 hrest⟩
  · rintro ⟨left, mid, taken, hrest⟩
    have hleft := (hitem ts (.of left) mid).2 taken
    exact ⟨.of left, mid, hleft, (exact_chainFrom hitem taken.height_le taken.ends).2 hrest⟩

theorem exact_disjunction (hitem : Exact .factor levels item) :
    Exact .expr levels (disjunction item) :=
  exact_chain (exact_chain hitem)

theorem exact_factor (endColumn levels : Nat) : Exact .factor levels (factor endColumn levels) := by
  induction levels using Nat.strongRecOn with
  | ind levels ih =>
    intro ts a rest
    cases ts with
    | nil => exact iff_of_false not_gives_factor_nil not_takes_factor_nil
    | cons t ts =>
      rw [gives_factor_cons, takes_factor_cons]
      constructor
      · rintro (⟨f, ht, rfl, rfl⟩ | ⟨ht, l, rfl, h⟩ | ⟨ht, l, rfl, h⟩)
        · exact .inl ⟨f, ht, rfl, rfl⟩
        · obtain ⟨body, hbody, rfl, low⟩ := gives_negation_iff.1 h
          have taken := (ih l (Nat.lt_succ_self l) _ _ _).1 hbody
          exact .inr (.inl ⟨ht, l, rfl, body.tree, taken, rfl, low⟩)
        · obtain ⟨q, hq, hinner⟩ := gives_enclosed_iff.1 h
          have taken := (exact_disjunction (ih l (Nat.lt_succ_self l)) _ _ _).1 hinner
          exact .inr (.inr ⟨ht, l, rfl, q, hq, taken⟩)
      · rintro (⟨f, ht, htree, rfl⟩ | ⟨ht, l, rfl, body, taken, htree, low⟩ |
          ⟨ht, l, rfl, q, hq, taken⟩)
        · exact .inl ⟨f, ht, Measured.tree_inj.1 htree, rfl⟩
        · have hbody := (ih l (Nat.lt_succ_self l) ts (.of body) rest).2 taken
          have hnot : a = (Measured.of body).not := Measured.tree_inj.1 htree
          exact .inr (.inl ⟨ht, l, rfl, gives_negation_iff.2 ⟨_, hbody, hnot, low⟩⟩)
        · have hinner := (exact_disjunction (ih l (Nat.lt_succ_self l)) _ _ _).2 taken
          exact .inr (.inr ⟨ht, l, rfl, gives_enclosed_iff.2 ⟨q, hq, hinner⟩⟩)

/-! ## Whole texts -/

theorem ofTokens_eq_ok_iff {endColumn : Nat} {ts : List Placed} {e : Expr} :
    ofTokens endColumn ts = .ok e ↔ ∃ n, Derives .expr n (ts.map Placed.token) e ∧
      e.height ≤ maxDepth ∧ n ≤ maxDepth := by
  have exact' := exact_disjunction (exact_factor endColumn maxDepth)
  unfold ofTokens
  constructor
  · intro h
    split at h
    · cases h
    · split at h
      · cases h
      · rename_i a hlength hread
        cases h
        obtain ⟨n, used, rfl, hderives, hn, low, -⟩ := (exact' _ _ _).1 ⟨hlength, hread⟩
        rw [List.append_nil] at *
        exact ⟨n, hderives, low, hn⟩
      · cases h
  · rintro ⟨n, hderives, low, hn⟩
    have taken : Phrase.expr.Takes maxDepth ts e [] :=
      ⟨n, ts, List.append_nil ts, hderives, hn, low, Phrase.ends_nil _⟩
    obtain ⟨hlength, hread⟩ := (exact' ts (.of e) []).2 taken
    have nonempty : ts.isEmpty = false := by
      cases ts with
      | nil => simp at hlength
      | cons => rfl
    rw [nonempty, hread]
    rfl

theorem ofChars_eq_ok_iff {cs : List Char} {e : Expr} :
    ofChars cs = .ok e ↔ ∃ ts n, Lexes cs ts ∧ Derives .expr n ts e ∧
      e.height ≤ maxDepth ∧ n ≤ maxDepth := by
  unfold ofChars
  constructor
  · intro h
    split at h
    · cases h
    · rename_i placed hscan
      obtain ⟨n, hderives, low, hn⟩ := ofTokens_eq_ok_iff.1 h
      exact ⟨_, n, lexes_of_scan hscan, hderives, low, hn⟩
  · rintro ⟨ts, n, hlexes, hderives, low, hn⟩
    obtain ⟨placed, hscan, rfl⟩ := scan_of_lexes hlexes 1
    rw [hscan]
    exact ofTokens_eq_ok_iff.2 ⟨n, hderives, low, hn⟩

/-- A text is read as a tree exactly if its characters are of the alphabet, the tokens that they
spell derive from the grammar as that tree, and the height of the tree and the nesting of the
derivation are at most 256.  A sequence of tokens has at most one tree, whatever its height. -/
theorem parse_eq_ok_iff :
    (∀ (text : String) (e : Expr), parse text = .ok e ↔
      (∀ c ∈ text.toList, InAlphabet c) ∧ ∃ ts nesting, Lexes text.toList ts ∧
        Derives .expr nesting ts e ∧ e.height ≤ 256 ∧ nesting ≤ 256) ∧
    ∀ (ts : List Token) (e e' : Expr) (nesting nesting' : Nat),
      Derives .expr nesting ts e → Derives .expr nesting' ts e' → e = e' := by
  refine ⟨fun text e => ?_, fun ts e e' n n' h h' => (h.unique h').1⟩
  rw [parse, ofChars_eq_ok_iff]
  constructor
  · rintro ⟨ts, n, hlexes, h⟩
    exact ⟨hlexes.inAlphabet, ts, n, hlexes, h⟩
  · rintro ⟨-, h⟩
    exact h

end ProductLine.Expr
