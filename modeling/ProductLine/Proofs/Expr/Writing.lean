/- # Written expressions — what is printed is read back

The text of an expression is a phrase of the grammar, and its tree is the
expression itself, whatever the shape (`writes_text`).  Two things meet in
the induction.  A chain is read from the left while its tree has its last
operand on the outside, so derivations of chains have to grow at their end
(`Derives.snoc`).  And the nesting stays below the height: a `!` is charged
to the negation that it belongs to and a pair of parentheses to the binary
operator inside it, which is why such an operator has to leave room for one
more level than the others.

So the bound on the nesting refuses no printed tree that the bound on the
height admits, and a tree is read back if and only if it is at most as high
as the bound (`parse_text`).
-/
import ProductLine.Expr.Text
import ProductLine.Proofs.Expr.Depth

namespace ProductLine

/-- A text that does not go on with a name can stand after any other. -/
theorem Lexes.append {cs ds : List Char} {ts us : List Token} (h : Lexes cs ts) (h' : Lexes ds us)
    (apart : ∀ c ∈ ds.head?, isIdentifierChar c = false) : Lexes (cs ++ ds) (ts ++ us) := by
  induction h with
  | nil => exact h'
  | blank hblank _ ih => exact .blank hblank ih
  | symbol hspells _ ih => exact .symbol hspells ih
  | @name f cs ts ends _ ih =>
    rw [List.append_assoc]
    refine .name (fun c hc => ?_) ih
    cases cs with
    | nil => exact apart c hc
    | cons d cs => exact ends c hc

namespace Expr

/-! ## Chains grow at their end -/

variable {op : Junction} {left right e : Expr} {m n : Nat} {ts us : List Token}

theorem Derives.tail_snoc (h : Derives (.tail op left) m ts e)
    (operand : Derives op.operand n us right) :
    Derives (.tail op left) (max m n) (ts ++ op.token :: us) (op.apply e right) := by
  generalize hk : Phrase.tail op left = k at h
  induction h generalizing left with
  | stop =>
    cases hk
    simpa using Derives.more operand (.stop op _)
  | more first _ _ ih =>
    cases hk
    rw [Nat.max_assoc, List.cons_append, List.append_assoc]
    exact .more first (ih rfl)
  | _ => cases hk

/-- One more operand makes what stands before it the left operand. -/
theorem Derives.snoc (h : Derives (.chain op) m ts left)
    (operand : Derives op.operand n us right) :
    Derives (.chain op) (max m n) (ts ++ op.token :: us) (op.apply left right) := by
  cases h with
  | chain first tail =>
    rw [Nat.max_assoc, List.append_assoc]
    exact .chain first (tail.tail_snoc operand)

/-- An operand is a chain by itself. -/
theorem Derives.single (op : Junction) (h : Derives op.operand n ts e) :
    Derives (.chain op) n ts e := by
  simpa using Derives.chain h (.stop op e)

/-! ## Texts of phrases -/

/-- The text spells a phrase of the class, with that tree and that nesting. -/
def Phrase.Writes (k : Phrase) (n : Nat) (cs : List Char) (e : Expr) : Prop :=
  ∃ ts, Lexes cs ts ∧ Derives k n ts e

/-- The operator as it is written between its operands. -/
def Junction.text : Junction → String
  | and => " & "
  | or => " | "

theorem lexes_operator (op : Junction) {cs : List Char} (h : Lexes cs ts) :
    Lexes (op.text.toList ++ cs) (op.token :: ts) := by
  cases op with
  | and => exact .blank (by decide) (.symbol .and (.blank (by decide) h))
  | or => exact .blank (by decide) (.symbol .or (.blank (by decide) h))

variable {cs ds : List Char} {a b : Expr} {p q : Nat}

theorem writes_var (f : Feature) : Phrase.factor.Writes 0 f.name.toList (.var f) := by
  have lexes : Lexes (f.name.toList ++ []) [.feature f] := .name (by simp) .nil
  rw [List.append_nil] at lexes
  exact ⟨_, lexes, .feature f⟩

theorem Phrase.Writes.not (h : Phrase.factor.Writes n cs a) :
    Phrase.factor.Writes (n + 1) ('!' :: cs) (.not a) := by
  obtain ⟨ts, lexes, derives⟩ := h
  exact ⟨_, .symbol .not lexes, .not derives⟩

theorem Phrase.Writes.join (op : Junction) (left : (Phrase.chain op).Writes m cs a)
    (right : op.operand.Writes n ds b) :
    (Phrase.chain op).Writes (max m n) (cs ++ (op.text.toList ++ ds)) (op.apply a b) := by
  obtain ⟨ts, lexes, derives⟩ := left
  obtain ⟨us, lexes', derives'⟩ := right
  refine ⟨_, lexes.append (lexes_operator op lexes') fun c hc => ?_, derives.snoc derives'⟩
  cases op <;> cases hc <;> decide

theorem Phrase.Writes.enclosed (h : Phrase.expr.Writes n cs a) :
    Phrase.factor.Writes (n + 1) ('(' :: (cs ++ [')'])) a := by
  obtain ⟨ts, lexes, derives⟩ := h
  have closed := lexes.append (.symbol .closing .nil) fun c hc => by cases hc; decide
  exact ⟨_, .symbol .opening closed, .enclosed derives⟩

theorem Phrase.Writes.single (op : Junction) (h : op.operand.Writes n cs a) :
    (Phrase.chain op).Writes n cs a := by
  obtain ⟨ts, lexes, derives⟩ := h
  exact ⟨ts, lexes, Derives.single op derives⟩

/-- A factor is a whole expression by itself. -/
theorem Phrase.Writes.whole (h : Phrase.factor.Writes n cs a) : Phrase.expr.Writes n cs a := by
  have conjunction : (Phrase.chain .and).Writes n cs a := .single .and h
  exact .single .or conjunction

/-- A text is read as a phrase in one way. -/
theorem Phrase.Writes.unique {k : Phrase} (h : k.Writes m cs a) (h' : k.Writes n cs b) : a = b := by
  obtain ⟨ts, lexes, derives⟩ := h
  obtain ⟨us, lexes', derives'⟩ := h'
  obtain rfl := lexes.unique lexes'
  exact (derives.unique derives').1

theorem Phrase.Writes.space_cons {k : Phrase} (h : k.Writes n cs a) : k.Writes n (' ' :: cs) a := by
  obtain ⟨ts, lexes, derives⟩ := h
  exact ⟨ts, .blank rfl lexes, derives⟩

theorem Phrase.Writes.append_space {k : Phrase} (h : k.Writes n cs a) :
    k.Writes n (cs ++ [' ']) a := by
  obtain ⟨ts, lexes, derives⟩ := h
  have apart : ∀ c ∈ [' '].head?, isIdentifierChar c = false := by
    rintro c ⟨⟩
    decide
  have ended := lexes.append (.blank rfl .nil) apart
  rw [List.append_nil] at ended
  exact ⟨ts, ended, derives⟩

/-! ## Height and depth

Where the nesting is within the bound, the height alone decides whether a text is read. -/

/-- What is read of a written text is its tree, if that is not too high. -/
theorem Phrase.Writes.ofChars_eq_ok_iff (h : Phrase.expr.Writes n cs a) (nesting : n ≤ maxDepth) :
    ofChars cs = .ok b ↔ b = a ∧ a.height ≤ maxDepth := by
  constructor
  · intro read
    obtain ⟨ts, k, lexes, derives, low, -⟩ := Expr.ofChars_eq_ok_iff.mp read
    have written : Phrase.expr.Writes k cs b := ⟨ts, lexes, derives⟩
    obtain rfl := written.unique h
    exact ⟨rfl, low⟩
  · rintro ⟨rfl, low⟩
    obtain ⟨ts, lexes, derives⟩ := h
    exact Expr.ofChars_eq_ok_iff.mpr ⟨ts, n, lexes, derives, low, nesting⟩

theorem Phrase.Writes.exists_ofChars_iff (h : Phrase.expr.Writes n cs a) (nesting : n ≤ maxDepth) :
    (∃ b, ofChars cs = .ok b) ↔ a.height ≤ maxDepth := by
  constructor
  · rintro ⟨b, read⟩
    exact ((h.ofChars_eq_ok_iff nesting).mp read).2
  · intro low
    exact ⟨a, (h.ofChars_eq_ok_iff nesting).mpr ⟨rfl, low⟩⟩

/-- A written text that is not read is refused for its depth. -/
theorem Phrase.Writes.tooDeep_iff (h : Phrase.expr.Writes n cs a) (nesting : n ≤ maxDepth) :
    TooDeep (ofChars cs) ↔ maxDepth < a.height := by
  constructor
  · rintro ⟨column, refused⟩
    refine Nat.lt_of_not_le fun low => ?_
    rw [(h.ofChars_eq_ok_iff nesting).mpr ⟨rfl, low⟩] at refused
    cases refused
  · intro high
    obtain ⟨ts, lexes, derives⟩ := id h
    refine (ofChars_of_derives lexes derives).resolve_left fun read => ?_
    exact absurd ((h.ofChars_eq_ok_iff nesting).mp read).2 (Nat.not_le_of_lt high)

/-! ## Precedence -/

/-- The class of what binds at least that tightly. -/
def Phrase.ofPrecedence (p : Nat) : Phrase :=
  if p ≤ 1 then .expr else if p = 2 then .chain .and else .factor

/-- What binds tightly may stand where something looser is admitted. -/
theorem Phrase.Writes.looser (h : (Phrase.ofPrecedence q).Writes n cs e) (hpq : p ≤ q) :
    (Phrase.ofPrecedence p).Writes n cs e := by
  obtain ⟨ts, lexes, derives⟩ := h
  refine ⟨ts, lexes, ?_⟩
  unfold Phrase.ofPrecedence at *
  by_cases loose : p ≤ 1
  case pos =>
    rw [if_pos loose]
    split at derives
    · exact derives
    · split at derives
      · exact Derives.single .or derives
      · exact Derives.single .or (Derives.single .and derives)
  case neg =>
    rw [if_neg loose]
    rw [if_neg (by omega)] at derives
    split
    · split at derives
      · exact derives
      · exact Derives.single .and derives
    · rwa [if_neg (by omega)] at derives

/-- An operand, with its parentheses where it needs them, is less deeply nested than it is high. -/
theorem writes_operand {own : Nat} (hp : p ≤ 3)
    (h : (Phrase.ofPrecedence e.precedence).Writes own e.text.toList e) (below : own < e.height)
    (room : e.precedence < 3 → own + 1 < e.height) : ∃ n < e.height,
      (Phrase.ofPrecedence p).Writes n (enclose (e.precedence < p) e.text).toList e := by
  by_cases loose : e.precedence < p
  case neg =>
    simp only [loose, decide_false, enclose]
    exact ⟨own, below, h.looser (Nat.le_of_not_lt loose)⟩
  case pos =>
    have inner : Phrase.expr.Writes own e.text.toList e := h.looser (p := 0) (Nat.zero_le _)
    have written : (Phrase.ofPrecedence 3).Writes (own + 1) ('(' :: (e.text.toList ++ [')'])) e :=
      inner.enclosed
    refine ⟨own + 1, room (by omega), ?_⟩
    simpa [loose, enclose] using written.looser hp

/-- The text of an expression is a phrase with that tree.  A binary operator leaves room for the
parentheses that it may be put in. -/
theorem writes_text (e : Expr) : ∃ n, (Phrase.ofPrecedence e.precedence).Writes n e.text.toList e ∧
    n < e.height ∧ (e.precedence < 3 → n + 1 < e.height) := by
  induction e with
  | var f => exact ⟨0, writes_var f, Nat.one_pos, by simp [precedence]⟩
  | not a ih =>
    obtain ⟨own, h, below, room⟩ := ih
    obtain ⟨n, low, written⟩ := writes_operand (p := 3) (Nat.le_refl _) h below room
    refine ⟨n + 1, ?_, by simpa [height] using low, by simp [precedence]⟩
    rw [text, String.toList_append]
    exact Phrase.Writes.not written
  | and a b iha ihb =>
    obtain ⟨own, h, below, room⟩ := iha
    obtain ⟨own', h', below', room'⟩ := ihb
    obtain ⟨m, low, left⟩ := writes_operand (p := 2) (by decide) h below room
    obtain ⟨n, low', right⟩ := writes_operand (p := 3) (by decide) h' below' room'
    have written := Phrase.Writes.join .and left right
    have bound : max m n + 1 < (and a b).height := by
      simp only [height]
      omega
    refine ⟨max m n, ?_, by omega, fun _ => bound⟩
    rw [text, String.toList_append, String.toList_append, List.append_assoc]
    exact written
  | or a b iha ihb =>
    obtain ⟨own, h, below, room⟩ := iha
    obtain ⟨own', h', below', room'⟩ := ihb
    obtain ⟨m, low, left⟩ := writes_operand (p := 1) (by decide) h below room
    obtain ⟨n, low', right⟩ := writes_operand (p := 2) (by decide) h' below' room'
    have written := Phrase.Writes.join .or left right
    have bound : max m n + 1 < (or a b).height := by
      simp only [height]
      omega
    refine ⟨max m n, ?_, by omega, fun _ => bound⟩
    rw [text, String.toList_append, String.toList_append, List.append_assoc]
    exact written

/-- An expression is read back from its text, as the same tree, if it is at most 256 levels high;
if it is higher, the reader finds it too deep and has nothing else to object to. -/
theorem parse_text (e : Expr) :
    (e.height ≤ 256 ↔ parse e.text = .ok e) ∧
    (256 < e.height ↔ ∃ column, parse e.text = .error ⟨column, .tooDeep⟩) ∧
    SyntaxCause.tooDeep.message = "expression nested too deeply (more than 256 levels)" := by
  obtain ⟨n, written, below, -⟩ := writes_text e
  obtain ⟨ts, lexes, derives⟩ : Phrase.expr.Writes n e.text.toList e :=
    written.looser (p := 0) (Nat.zero_le _)
  have read_iff : parse e.text = .ok e ↔ e.height ≤ 256 := by
    constructor
    · intro read
      obtain ⟨_, _, _, _, low, _⟩ := ofChars_eq_ok_iff.1 read
      exact low
    · intro low
      exact ofChars_eq_ok_iff.2 ⟨ts, n, lexes, derives, low, Nat.le_trans (Nat.le_of_lt below) low⟩
  refine ⟨read_iff.symm, ⟨fun high => ?_, fun ⟨column, refused⟩ => ?_⟩, rfl⟩
  · refine (ofChars_of_derives lexes derives).resolve_left fun read => ?_
    exact absurd (read_iff.1 read) (Nat.not_le_of_lt high)
  · refine Nat.lt_of_not_le fun low => ?_
    rw [read_iff.2 low] at refused
    cases refused

end Expr

end ProductLine
