/- # Conjunctions — cutting an answer keeps what it means

The terms of an answer are found by counting parentheses, and the tree of the
answer by the grammar.  On an answer that mixes `&` and `|` outside all
parentheses the two disagree: `A | B & C` is cut into `A | B` and `C`, which is
another condition.  They agree on every other expression
(`Terms.read_meaning`), for two reasons.

    outside   only `&`   the pieces are the operands of the outermost conjunction
              only `|`   there is one piece, the whole

and taking off the pair of parentheses that encloses a piece leaves its tree
as it is (`Expr.Phrase.Writes.unwrap`): the first parenthesis is closed by the
last one, so what stands between them is the expression of the pair.

The two bounds of the reader stay out of it.  A piece has a part of the tree
and a part of the nesting, so it is read if the whole is.
-/
import ProductLine.Proofs.Engine.Terms
import ProductLine.Proofs.Expr.Chain

namespace ProductLine

open Text (Blank)
open Terms (Balanced Uncut splitConjuncts unwrap respell)

/-! ## Texts with the same tokens -/

section Tokens

variable {cs before after : List Char} {ts : List Token}

/-- White space around a text is not among its tokens. -/
theorem Lexes.surround (h : Lexes cs ts) (hbefore : Blank before) (hafter : Blank after) :
    Lexes (before ++ (cs ++ after)) ts := by
  have ended : Lexes (cs ++ after) (ts ++ []) := by
    refine h.append ?_ ?_
    · clear h
      induction after with
      | nil => exact .nil
      | cons c after ih =>
        obtain ⟨hc, others⟩ := List.forall_mem_cons.mp hafter
        exact .blank hc (ih others)
    · intro c hc
      rw [Bool.eq_false_iff]
      intro letter
      have blank := hafter c (List.mem_of_mem_head? hc)
      rw [isBlank_of_isIdentifierChar letter] at blank
      cases blank
  rw [List.append_nil] at ended
  induction before with
  | nil => exact ended
  | cons c before ih =>
    obtain ⟨hc, others⟩ := List.forall_mem_cons.mp hbefore
    exact .blank hc (ih others)

/-- A part of a text has tokens of its own. -/
theorem Lexes.exists_of_subset {part : List Char} (h : Lexes cs ts) (sub : part ⊆ cs) :
    ∃ us, Lexes part us :=
  exists_lexes_iff.mpr fun c hc => h.inAlphabet c (sub hc)

theorem Lexes.trim (h : Lexes cs ts) : Lexes (Text.trim cs) ts := by
  obtain ⟨before, after, hbefore, hafter, hcs⟩ := Text.exists_surround_trim cs
  obtain ⟨us, inner⟩ := h.exists_of_subset (Text.trim_subset cs)
  have whole := inner.surround hbefore hafter
  rw [← hcs] at whole
  obtain rfl := h.unique whole
  exact inner

/-- The two spellings of `!` are one token. -/
theorem Lexes.respell (h : Lexes cs ts) : Lexes (respell cs) ts := by
  induction h with
  | nil => exact .nil
  | @blank c cs ts hblank _ ih =>
    have kept : Terms.respell (c :: cs) = c :: Terms.respell cs := by
      refine congrArg (List.cons · _) (if_neg ?_)
      rintro rfl
      exact absurd hblank (by decide)
    rw [kept]
    exact .blank hblank ih
  | symbol hspells _ ih =>
    cases hspells with
    | and => exact .symbol .and ih
    | or => exact .symbol .or ih
    | not => exact .symbol .not ih
    | tilde => exact .symbol .not ih
    | opening => exact .symbol .opening ih
    | closing => exact .symbol .closing ih
  | @name f cs ts ends _ ih =>
    have letters : '~' ∉ f.name.toList := by
      intro hmem
      exact absurd (Feature.isIdentifierChar_of_mem_name hmem) (by decide)
    rw [Terms.respell_append, Terms.respell_of_notMem letters]
    refine .name ?_ ih
    intro c hc
    cases cs with
    | nil => cases hc
    | cons d cs =>
      obtain rfl := Option.some.inj hc
      show isIdentifierChar (if d = '~' then '!' else d) = false
      split
      · decide
      · exact ends d rfl

/-- Only white space has no tokens. -/
theorem Lexes.blank_of_nil (h : Lexes cs []) : Blank cs := by
  generalize hnil : ([] : List Token) = none at h
  induction h with
  | nil => exact Text.blank_nil
  | blank hblank _ ih => exact List.forall_mem_cons.mpr ⟨hblank, ih hnil⟩
  | symbol => cases hnil
  | name => cases hnil

/-- A character that is a token by itself is one of the tokens. -/
theorem Lexes.mem_of_spells {c : Char} {t : Token} (h : Lexes cs ts) (hc : c ∈ cs)
    (hspells : Spells c t) : t ∈ ts := by
  induction h with
  | nil => cases hc
  | blank hblank _ ih =>
    rcases List.mem_cons.mp hc with rfl | hc
    · rw [isBlank_of_spells hspells] at hblank
      cases hblank
    · exact ih hc
  | symbol hspells' _ ih =>
    rcases List.mem_cons.mp hc with rfl | hc
    · rw [← ofSymbol?_eq_some_iff] at hspells hspells'
      obtain rfl := Option.some.inj (hspells.symm.trans hspells')
      exact List.mem_cons_self
    · exact List.mem_cons_of_mem _ (ih hc)
  | name _ _ ih =>
    rcases List.mem_append.mp hc with letter | hc
    · have none := ofSymbol?_of_isIdentifierChar (Feature.isIdentifierChar_of_mem_name letter)
      rw [ofSymbol?_eq_some_iff.mpr hspells] at none
      cases none
    · exact List.mem_cons_of_mem _ (ih hc)

end Tokens

namespace Expr

variable {n : Nat} {cs : List Char} {ts : List Token} {e : Expr}

/-! ## The pair of parentheses around an expression -/

/-- An expression that begins with a parenthesis has an expression in it, and is this expression if
nothing comes after the parenthesis that closes it. -/
theorem Derives.of_opening (h : Derives .expr n (.opening :: ts) e) :
    ∃ m ≤ n, ∃ us rest, ∃ inner : Expr, ts = us ++ .closing :: rest ∧ Derives .expr m us inner ∧
      (rest = [] → inner = e) := by
  generalize hall : Token.opening :: ts = all at h
  cases h with
  | @chain _ _ _ _ rest _ _ conjunction disjuncts =>
    cases conjunction with
    | @chain _ _ _ _ rest' inner _ factor conjuncts =>
      cases factor with
      | feature => cases hall
      | not => cases hall
      | @enclosed m us _ derives =>
        obtain ⟨-, rfl⟩ := List.cons.inj hall
        refine ⟨m, by omega, us, rest' ++ rest, inner, by simp, derives, ?_⟩
        · intro none
          obtain ⟨rfl, rfl⟩ := List.append_eq_nil_iff.mp none
          cases conjuncts
          cases disjuncts
          rfl

/-- Taking off the parentheses of a text, where they enclose all of it, leaves its tree. -/
theorem Phrase.Writes.unwrap (h : Phrase.expr.Writes n cs e) :
    ∃ m ≤ n, Phrase.expr.Writes m (Terms.unwrap cs) e := by
  unfold Terms.unwrap
  split
  case h_1 => exact ⟨n, Nat.le_refl n, h⟩
  case h_2 inner found =>
    split
    case isFalse => exact ⟨n, Nat.le_refl n, h⟩
    case isTrue stays =>
      obtain ⟨ts, lexes, derives⟩ := h
      obtain rfl := Terms.between?_eq_some found
      obtain ⟨us, lexes'⟩ := lexes.exists_of_subset
        (List.subset_cons_of_subset '(' (List.subset_append_left inner [')']))
      -- the tokens of the text are those between the parentheses, and the parentheses
      have around : Lexes ('(' :: (inner ++ [')'])) (.opening :: (us ++ [.closing])) := by
        refine .symbol .opening (lexes'.append (.symbol .closing .nil) ?_)
        rintro c ⟨⟩
        decide
      obtain rfl := lexes.unique around
      obtain ⟨m, hm, vs, rest, tree, hus, derives', whole⟩ := derives.of_opening
      cases rest using List.reverseRecOn with
      | nil =>
        obtain rfl := List.append_cancel_right hus
        obtain rfl := whole rfl
        exact ⟨m, hm, us, lexes'.trim, derives'⟩
      | append_singleton rest last =>
        -- otherwise the first parenthesis is closed too early, and the count falls below zero
        rw [← List.cons_append, ← List.append_assoc] at hus
        obtain ⟨rfl, -⟩ := List.append_inj' hus rfl
        rw [← Terms.staysOpen_filter_isParen (Int.le_refl 0), lexes'.parens, List.filterMap_append,
          Terms.staysOpen_append, derives'.balanced.closes, Bool.and_eq_true] at stays
        cases stays.2

/-! ## The operands of a conjunction -/

variable {op : Junction} {left : Expr}

/-- The tokens after the first operand of a chain are operands, each after an operator. -/
theorem Derives.exists_operands (h : Derives (.tail op left) n ts e) :
    ∃ operands : List (List Token × Expr),
      ts = operands.flatMap (fun p => op.token :: p.1) ∧
      e = op.chainOf left (operands.map Prod.snd) ∧
      ∀ p ∈ operands, ∃ m ≤ n, Derives op.operand m p.1 p.2 := by
  generalize hk : Phrase.tail op left = k at h
  induction h generalizing left with
  | stop =>
    cases hk
    exact ⟨[], rfl, rfl, nofun⟩
  | @more op m n ts us left right e operand _ _ ih =>
    cases hk
    obtain ⟨operands, rfl, rfl, derives⟩ := ih rfl
    refine ⟨(ts, right) :: operands, rfl, rfl, ?_⟩
    refine List.forall_mem_cons.mpr ⟨⟨m, Nat.le_max_left m n, operand⟩, ?_⟩
    intro p hp
    obtain ⟨m', hm', derives⟩ := derives p hp
    exact ⟨m', Nat.le_trans hm' (Nat.le_max_right m n), derives⟩
  | _ => cases hk

/-- An operand is at most as high as its chain. -/
theorem height_le_chainOf (op : Junction) (first : Expr) (rest : List Expr) :
    ∀ operand ∈ first :: rest, operand.height ≤ (op.chainOf first rest).height := by
  induction rest generalizing first with
  | nil => exact List.forall_mem_singleton.mpr (Nat.le_refl _)
  | cons next rest ih =>
    obtain ⟨joined, others⟩ := List.forall_mem_cons.mp (ih (op.apply first next))
    rw [height_apply] at joined
    have same : op.chainOf first (next :: rest) = op.chainOf (op.apply first next) rest := rfl
    rw [same]
    exact List.forall_mem_cons.mpr ⟨by omega, List.forall_mem_cons.mpr ⟨by omega, others⟩⟩

end Expr

namespace Terms

open ProductLine.Expr (Phrase)

variable {n : Nat} {cs : List Char} {ts : List Token} {e : Expr}

/-! ## Where there is no cut -/

/-- The character stands in the text where no parenthesis is open. -/
def Outside (c : Char) (cs : List Char) : Prop :=
  ∃ before after, cs = before ++ c :: after ∧ depthAt 0 before = 0

theorem outside_iff {c : Char} {cs : List Char} :
    Outside c cs ↔ ∃ i < cs.length, cs[i]? = some c ∧ depthAt 0 (cs.take i) = 0 := by
  constructor
  · rintro ⟨before, after, rfl, outside⟩
    refine ⟨before.length, by simp, ?_, ?_⟩
    · rw [List.getElem?_append_right (Nat.le_refl _), Nat.sub_self, List.getElem?_cons_zero]
    · rwa [List.take_left]
  · rintro ⟨i, hi, hc, outside⟩
    obtain ⟨-, rfl⟩ := List.getElem?_eq_some_iff.mp hc
    refine ⟨cs.take i, cs.drop (i + 1), ?_, outside⟩
    rw [← List.drop_eq_getElem_cons hi, List.take_append_drop]

instance {c : Char} {cs : List Char} : Decidable (Outside c cs) :=
  decidable_of_iff' _ outside_iff

/-- A cut is at an `&` where no parenthesis is open. -/
theorem uncut_of_not_outside (h : ¬ Outside '&' cs) : Uncut 0 cs := by
  have general (depth : Int) (rest : List Char)
      (none : ∀ before after, rest = before ++ '&' :: after → depthAt depth before ≠ 0) :
      Uncut depth rest := by
    induction rest generalizing depth with
    | nil => trivial
    | cons c rest ih =>
      refine ⟨?_, ih (depthAfter depth c) ?_⟩
      · rintro ⟨rfl, outside⟩
        exact none [] rest rfl outside
      · rintro before after rfl outside
        exact none (c :: before) after rfl outside
  refine general 0 cs ?_
  intro before after hcs outside
  exact h ⟨before, after, hcs, outside⟩

theorem uncut_respell {depth : Int} : Uncut depth (respell cs) ↔ Uncut depth cs := by
  induction cs generalizing depth with
  | nil => exact Iff.rfl
  | cons c cs ih =>
    by_cases tilde : c = '~'
    case pos =>
      subst tilde
      have mark : respell ('~' :: cs) = '!' :: respell cs := rfl
      rw [mark, Uncut, Uncut]
      simp only [depthAfter, ih]
      simp
    case neg =>
      have kept : respell (c :: cs) = c :: respell cs := congrArg (List.cons · _) (if_neg tilde)
      rw [kept, Uncut, Uncut, ih]

/-- There is no cut in a factor: it is a name, or its parentheses enclose what is in it. -/
theorem uncut_of_factor (h : Phrase.factor.Writes n cs e) : Uncut 0 cs := by
  obtain ⟨ts, lexes, derives⟩ := h
  generalize hk : Phrase.factor = k at derives
  induction derives generalizing cs with
  | feature f =>
    refine uncut_of_not_outside ?_
    rintro ⟨before, after, rfl, -⟩
    have mark := lexes.mem_of_spells (List.mem_append_right before List.mem_cons_self) .and
    cases List.mem_singleton.mp mark
  | not _ ih =>
    obtain ⟨before, c, after, rfl, hspells, hbefore, hafter⟩ :=
      lexes.exists_cut [] nofun
    refine (uncut_of_blank hbefore.blank_of_nil 0).append ?_
    rw [(balanced_of_blank hbefore.blank_of_nil).depthAt]
    have rest := ih hafter rfl
    cases hspells with
    | not => exact ⟨by decide, rest⟩
    | tilde => exact ⟨by decide, rest⟩
  | enclosed derives _ =>
    obtain ⟨before, c, text, rfl, hspells, hbefore, htext⟩ :=
      lexes.exists_cut [] nofun
    cases hspells
    obtain ⟨inner, c, after, rfl, hspells, hinner, hafter⟩ := htext.exists_cut _ nofun
    cases hspells
    have balanced := Expr.balanced_of_derives hinner derives
    refine (uncut_of_blank hbefore.blank_of_nil 0).append ?_
    rw [(balanced_of_blank hbefore.blank_of_nil).depthAt, List.append_cons, ← List.cons_append]
    refine balanced.uncut_enclosed.append ?_
    exact uncut_of_blank hafter.blank_of_nil _
  | _ => cases hk

/-! ## The pieces of an expression -/

/-- The piece can be read as a tree that is part of `e`. -/
def PieceOf (n : Nat) (e : Expr) (piece : List Char) (tree : Expr) : Prop :=
  tree.height ≤ e.height ∧ ∃ m ≤ n, Phrase.expr.Writes m piece tree

/-- Operands with an `&` before each of them are cut one by one. -/
theorem forall₂_splitConjuncts {first : List Token} {tree : Expr}
    {operands : List (List Token × Expr)}
    (lexes : Lexes cs (first ++ operands.flatMap fun p => Token.and :: p.1))
    (derives : ∀ p ∈ (first, tree) :: operands,
      p.2.height ≤ e.height ∧ ∃ m ≤ n, Expr.Derives .factor m p.1 p.2) :
    List.Forall₂ (PieceOf n e) (splitConjuncts 0 cs) (tree :: operands.map Prod.snd) := by
  induction operands generalizing cs first tree with
  | nil =>
    obtain ⟨⟨part, m, hm, factor⟩, -⟩ := List.forall_mem_cons.mp derives
    rw [List.flatMap_nil, List.append_nil] at lexes
    have written : Phrase.factor.Writes m cs tree := ⟨first, lexes, factor⟩
    rw [splitConjuncts_of_uncut (uncut_of_factor written)]
    exact .cons ⟨part, m, hm, written.whole⟩ .nil
  | cons p operands ih =>
    obtain ⟨⟨part, m, hm, factor⟩, others⟩ := List.forall_mem_cons.mp derives
    obtain ⟨before, c, after, rfl, hspells, hbefore, hafter⟩ := lexes.exists_cut _ nofun
    cases hspells
    have written : Phrase.factor.Writes m before tree := ⟨first, hbefore, factor⟩
    have balanced := Expr.balanced_of_derives hbefore factor
    rw [splitConjuncts_append (uncut_of_factor written), balanced.depthAt, splitConjuncts,
      if_pos ⟨rfl, rfl⟩, List.modifyHead_cons, List.append_nil]
    exact .cons ⟨part, m, hm, written.whole⟩ (ih hafter others)

/-- The expression is the conjunction of its pieces, unless it is a disjunction with an `&` outside
all parentheses. -/
theorem exists_forall₂_pieceOf (h : Phrase.expr.Writes n cs e)
    (separate : ¬ (Outside '&' cs ∧ Outside '|' cs)) : ∃ trees,
      List.Forall₂ (PieceOf n e) (splitConjuncts 0 (respell cs)) trees ∧
        ∀ σ, e.eval σ = trees.all (Expr.eval σ) := by
  obtain ⟨ts, lexes, derives⟩ := h
  have whole : Phrase.expr.Writes n (respell cs) e := ⟨ts, lexes.respell, derives⟩
  cases derives with
  | @chain _ m _ _ _ _ _ conjunction disjuncts =>
    cases disjuncts with
    | stop =>
      cases conjunction with
      | @chain _ k l first _ tree _ factor conjuncts =>
        obtain ⟨operands, rfl, rfl, derives⟩ := conjuncts.exists_operands
        refine ⟨tree :: operands.map Prod.snd, ?_, fun σ => Expr.eval_chainOf_and⟩
        rw [List.append_nil] at lexes
        obtain ⟨low, lows⟩ := List.forall_mem_cons.mp
          (Expr.height_le_chainOf .and tree (operands.map Prod.snd))
        refine forall₂_splitConjuncts lexes.respell ?_
        refine List.forall_mem_cons.mpr ⟨⟨low, k, by omega, factor⟩, ?_⟩
        intro p hp
        obtain ⟨m', hm', derives⟩ := derives p hp
        exact ⟨lows p.2 (List.mem_map_of_mem hp), m', by omega, derives⟩
    | @more _ _ _ us vs right _ disjunct rest =>
      -- there is an operator at depth zero, and so no `&` is
      obtain ⟨before, c, after, rfl, hspells, hbefore, -⟩ := lexes.exists_cut _ nofun
      cases hspells
      have balanced := Expr.balanced_of_derives hbefore conjunction
      have bar : Outside '|' (before ++ '|' :: after) := ⟨before, after, rfl, balanced.closes⟩
      have uncut := uncut_of_not_outside fun mark => separate ⟨mark, bar⟩
      rw [splitConjuncts_of_uncut (uncut_respell.mpr uncut)]
      refine ⟨[e], .cons ⟨Nat.le_refl _, _, Nat.le_refl _, whole⟩ .nil, ?_⟩
      intro σ
      exact (Bool.and_true _).symm

/-! ## The terms of an expression -/

/-- A piece of an expression that can be read is a term that can be read, as the same tree. -/
theorem PieceOf.ofChars_unwrap {piece : List Char} {tree : Expr} (h : PieceOf n e piece tree)
    (low : e.height ≤ maxDepth) (hn : n ≤ maxDepth) :
    Expr.ofChars (unwrap (Text.trim piece)) = .ok tree := by
  obtain ⟨part, m, hm, ts, lexes, derives⟩ := h
  have trimmed : Phrase.expr.Writes m (Text.trim piece) tree := ⟨ts, lexes.trim, derives⟩
  obtain ⟨m', hm', us, lexes', derives'⟩ := trimmed.unwrap
  refine Expr.ofChars_eq_ok_iff.mpr ⟨us, m', lexes', derives', ?_, ?_⟩
  · exact Nat.le_trans part low
  · exact Nat.le_trans hm' (Nat.le_trans hm hn)

theorem ne_nil_of_ofChars (h : Expr.ofChars cs = .ok e) : cs ≠ [] := by
  rintro rfl
  rw [Expr.ofChars, scan] at h
  cases h

/-- Pieces that can be read are the terms of a text. -/
theorem read_of_forall₂ {text : String} {trees : List Expr}
    (h : List.Forall₂ (fun piece tree => Expr.ofChars (unwrap (Text.trim piece)) = .ok tree)
      (splitConjuncts 0 (respell text.toList)) trees) :
    ∃ terms, read text = .ok terms ∧
      List.Forall₂ (fun t tree => Expr.parse t = .ok tree) terms trees := by
  let parts := ((splitConjuncts 0 (respell text.toList)).map Text.trim).map unwrap
  have parsed : List.Forall₂ (fun part tree => Expr.ofChars part = .ok tree) parts trees := by
    rw [List.forall₂_map_left_iff, List.forall₂_map_left_iff]
    exact h
  have readable : ∀ part ∈ parts, ∃ tree, Expr.ofChars part = .ok tree :=
    ((List.forall₂_and_left parts trees).mp
      (parsed.imp fun _ tree hread => ⟨⟨tree, hread⟩, hread⟩)).1
  have kept : pieces text.toList = parts := by
    rw [pieces_eq, List.filter_eq_self]
    intro part hpart
    obtain ⟨tree, hread⟩ := readable part hpart
    simpa using ne_nil_of_ofChars hread
  refine ⟨parts.map String.ofList, ?_, ?_⟩
  · rw [read, kept, mapM_eq_ok_iff, List.map_map (l := parts)]
    refine List.map_congr_left ?_
    intro part hpart
    obtain ⟨tree, hread⟩ := readable part hpart
    refine check_eq_ok_iff.mpr ⟨String.toList_ofList, tree, ?_⟩
    rw [Expr.parse, String.toList_ofList, hread]
  · rw [List.forall₂_map_left_iff]
    refine parsed.imp ?_
    intro part tree hread
    rw [Expr.parse, String.toList_ofList, hread]

/-- Terms that can be read hold together where all of their trees do. -/
theorem all_eval_iff {terms : List String} {trees : List Expr} (σ : Assignment)
    (h : List.Forall₂ (fun t tree => Expr.parse t = .ok tree) terms trees) :
    trees.all (Expr.eval σ) = true ↔
      ∀ t ∈ terms, ∃ e, Expr.parse t = .ok e ∧ e.eval σ = true := by
  induction h with
  | nil => exact iff_of_true rfl nofun
  | cons hread _ ih =>
    rw [List.all_cons, Bool.and_eq_true, ih, List.forall_mem_cons, hread]
    simp

/-- An expression in which `&` and `|` do not both stand outside all parentheses is read as terms,
each of them an expression, and they hold together exactly where the expression does. -/
theorem read_meaning {text : String} {e : Expr} (h : Expr.parse text = .ok e)
    (separate : ¬ (Outside '&' text.toList ∧ Outside '|' text.toList)) : ∃ terms,
      read text = .ok terms ∧ (∀ t ∈ terms, ∃ e', Expr.parse t = .ok e') ∧
      ∀ σ, e.eval σ = true ↔ ∀ t ∈ terms, ∃ e', Expr.parse t = .ok e' ∧ e'.eval σ = true := by
  obtain ⟨ts, n, lexes, derives, low, hn⟩ := Expr.ofChars_eq_ok_iff.mp h
  obtain ⟨trees, cut, values⟩ := exists_forall₂_pieceOf ⟨ts, lexes, derives⟩ separate
  obtain ⟨terms, hread, parsed⟩ := read_of_forall₂ (cut.imp fun _ _ => (·.ofChars_unwrap low hn))
  refine ⟨terms, hread, ?_, ?_⟩
  · intro t ht
    exact (isTerm_of_read hread t ht).isExpression
  · intro σ
    rw [values, all_eval_iff σ parsed]

end Terms

namespace Sample

/-- Every `|` is inside parentheses, and one pair of these is around a whole term. -/
def conjunctionText : String := "(A | ~B) & !(C & A)&((B))"

open Cnf.Sample in
def conjunctionTree : Expr :=
  .and (.and (.or (.var a) (.not (.var b))) (.not (.and (.var c) (.var a)))) (.var b)

end Sample

open Sample in
theorem Terms.read_meaning_sample : ∃ terms,
    Terms.read conjunctionText = .ok terms ∧ (∀ t ∈ terms, ∃ e', Expr.parse t = .ok e') ∧
    ∀ σ, conjunctionTree.eval σ = true ↔
      ∀ t ∈ terms, ∃ e', Expr.parse t = .ok e' ∧ e'.eval σ = true := by
  have parsed : Expr.parse conjunctionText = .ok conjunctionTree := by decide +kernel
  have separate : ¬ (Terms.Outside '&' conjunctionText.toList ∧
      Terms.Outside '|' conjunctionText.toList) := by decide
  exact Terms.read_meaning parsed separate

/-- With both operators outside, the conjunction is not the outermost one. -/
example : Terms.read "A | B & C" = .ok ["A | B", "C"] := by decide +kernel

end ProductLine
