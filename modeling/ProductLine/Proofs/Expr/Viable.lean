/- # Beginnings of expressions — which tokens can still go on

A sequence of tokens is viable if something can be put after it that makes it
an expression, however high or nested.  Two facts about a sequence decide this,
and precedence is not among them: how many parentheses are open, and whether an
operand has to come next.  Both are counted from left to right (`Stance.run`).

| before | token | after |
| :-- | :-- | :-- |
| `n` open, operand wanted | feature | `n` open, operand there |
| `n` open, operand wanted | `!` | `n` open, operand wanted |
| `n` open, operand wanted | `(` | `n + 1` open, operand wanted |
| `n` open, operand there | `&`, `\|` | `n` open, operand wanted |
| `n + 1` open, operand there | `)` | `n` open, operand there |

A phrase of the grammar leads from a wanted operand to one that is there, with
as many parentheses open as before (`Derives.run_eq`).  So a sequence on which
the count gets stuck is the beginning of no expression, and one that ends
elsewhere than at no open parenthesis and an operand is not a whole one.
-/
import ProductLine.Proofs.Expr.Grammar

namespace ProductLine.Expr

/-! ## Beginnings -/

/-- The tokens are the beginning of a phrase of the class. -/
def Phrase.Begins (k : Phrase) (ts : List Token) : Prop :=
  ∃ us n e, Derives k n (ts ++ us) e

/-- The tokens are the beginning of an expression. -/
def Viable (ts : List Token) : Prop :=
  Phrase.expr.Begins ts

/-- The tokens are an expression. -/
def Grammatical (ts : List Token) : Prop :=
  ∃ n e, Derives .expr n ts e

variable {op : Junction} {left right e : Expr} {n : Nat} {ts us : List Token}

theorem Derives.begins {k : Phrase} (h : Derives k n ts e) : k.Begins ts :=
  ⟨[], n, e, by rwa [List.append_nil]⟩

theorem begins_factor_nil : Phrase.factor.Begins [] :=
  ⟨_, 0, _, .feature (.ofRun 'A' [] rfl)⟩

theorem Phrase.Begins.not (h : Phrase.factor.Begins ts) : Phrase.factor.Begins (.not :: ts) := by
  obtain ⟨us, n, e, h⟩ := h
  exact ⟨us, n + 1, .not e, .not h⟩

theorem Phrase.Begins.enclosed (h : Viable ts) : Phrase.factor.Begins (.opening :: ts) := by
  obtain ⟨us, n, e, h⟩ := h
  refine ⟨us ++ [.closing], n + 1, e, ?_⟩
  rw [List.cons_append, ← List.append_assoc]
  exact .enclosed h

/-- The beginning of an operand begins a chain. -/
theorem Phrase.Begins.operand (h : op.operand.Begins ts) : (Phrase.chain op).Begins ts := by
  obtain ⟨us, n, e, h⟩ := h
  refine ⟨us, max n 0, e, ?_⟩
  rw [← List.append_nil (ts ++ us)]
  exact .chain h (.stop op e)

/-- So does an operand with the beginning of what follows it. -/
theorem Phrase.Begins.tail (first : Derives op.operand n ts left)
    (h : (Phrase.tail op left).Begins us) : (Phrase.chain op).Begins (ts ++ us) := by
  obtain ⟨more, m, e, h⟩ := h
  refine ⟨more, max n m, e, ?_⟩
  rw [List.append_assoc]
  exact .chain first h

/-- The operator and the beginning of an operand go on with a chain. -/
theorem Phrase.Begins.tail_operand (left : Expr) (h : op.operand.Begins ts) :
    (Phrase.tail op left).Begins (op.token :: ts) := by
  obtain ⟨us, n, e, h⟩ := h
  refine ⟨us, max n 0, op.apply left e, ?_⟩
  rw [List.cons_append, ← List.append_nil (ts ++ us)]
  exact .more h (.stop op _)

/-- So do the operator, a whole operand, and the beginning of what follows it. -/
theorem Phrase.Begins.tail_more (next : Derives op.operand n ts right)
    (h : (Phrase.tail op (op.apply left right)).Begins us) :
    (Phrase.tail op left).Begins (op.token :: (ts ++ us)) := by
  obtain ⟨more, m, e, h⟩ := h
  refine ⟨more, max n m, e, ?_⟩
  rw [List.cons_append, List.append_assoc]
  exact .more next h

/-! ## Counting from left to right -/

/-- The parentheses that are open after a sequence of tokens, and whether an operand is wanted. -/
structure Stance where
  depth : Nat
  wanted : Bool
deriving DecidableEq

namespace Stance

/-- The stance after one more token, if that token can come next. -/
def step : Stance → Token → Option Stance
  | ⟨n, true⟩, .feature _ => some ⟨n, false⟩
  | ⟨n, true⟩, .not => some ⟨n, true⟩
  | ⟨n, true⟩, .opening => some ⟨n + 1, true⟩
  | ⟨n, false⟩, .and | ⟨n, false⟩, .or => some ⟨n, true⟩
  | ⟨n + 1, false⟩, .closing => some ⟨n, false⟩
  | _, _ => none

/-- The stance after more tokens. -/
def run (s : Stance) (ts : List Token) : Option Stance :=
  ts.foldlM step s

variable {s s' : Stance}

theorem run_cons (s : Stance) (t : Token) (ts : List Token) :
    s.run (t :: ts) = (s.step t).bind (·.run ts) := rfl

theorem run_append (s : Stance) (ts us : List Token) :
    s.run (ts ++ us) = (s.run ts).bind (·.run us) :=
  List.foldlM_append

theorem step_operator (n : Nat) (op : Junction) : step ⟨n, false⟩ op.token = some ⟨n, true⟩ := by
  cases op <;> rfl

theorem depth_add_of_step {t : Token} (h : s.step t = some s') :
    s'.depth + [t].count .closing = s.depth + [t].count .opening := by
  unfold step at h
  split at h <;> cases h <;> rfl

/-- What was open and what has been opened since is open now or has been closed. -/
theorem depth_add_count {ts : List Token} (h : s.run ts = some s') :
    s'.depth + ts.count .closing = s.depth + ts.count .opening := by
  induction ts generalizing s with
  | nil =>
    cases h
    rfl
  | cons t ts ih =>
    rw [run_cons, Option.bind_eq_some_iff] at h
    obtain ⟨between, hstep, hrun⟩ := h
    have first := depth_add_of_step hstep
    have rest := ih hrun
    rw [← List.singleton_append, List.count_append, List.count_append]
    omega

end Stance

/-- Whether a phrase of the class starts with an operand. -/
def Phrase.wanted : Phrase → Bool
  | factor | chain _ => true
  | tail .. => false

theorem Junction.wanted_operand (op : Junction) : op.operand.wanted = true := by
  cases op <;> rfl

/-- A phrase is an operand, or goes on with one, and closes what it opens. -/
theorem Derives.run_eq {k : Phrase} (h : Derives k n ts e) (depth : Nat) :
    Stance.run ⟨depth, k.wanted⟩ ts = some ⟨depth, false⟩ := by
  induction h generalizing depth with
  | feature => rfl
  | not _ ih => exact ih depth
  | enclosed _ ih =>
    show Stance.run ⟨depth + 1, true⟩ _ = _
    rw [Stance.run_append, show Stance.run ⟨depth + 1, true⟩ _ = _ from ih (depth + 1)]
    rfl
  | @chain op _ _ _ _ _ _ _ _ ih ihTail =>
    rw [op.wanted_operand] at ih
    rw [Stance.run_append, show Phrase.wanted (.chain op) = true from rfl, ih, Option.bind_some]
    exact ihTail depth
  | stop => rfl
  | @more op _ _ _ _ _ _ _ _ _ ih ihTail =>
    rw [op.wanted_operand] at ih
    rw [Stance.run_cons, show Phrase.wanted (.tail op _) = false from rfl, Stance.step_operator,
      Option.bind_some, Stance.run_append, ih, Option.bind_some]
    exact ihTail depth

/-- The stance at the start of an expression. -/
def Stance.start : Stance := ⟨0, true⟩

theorem Grammatical.run_eq (h : Grammatical ts) : Stance.start.run ts = some ⟨0, false⟩ := by
  obtain ⟨n, e, h⟩ := h
  exact h.run_eq 0

/-- Where the count gets stuck, nothing goes on. -/
theorem not_viable (h : Stance.start.run ts = none) : ¬ Viable ts := by
  rintro ⟨us, n, e, whole⟩
  have run := Grammatical.run_eq ⟨n, e, whole⟩
  rw [Stance.run_append, h] at run
  cases run

/-! ## Parentheses that are never closed -/

/-- Nothing in the tokens closes a parenthesis that is opened in front of them. -/
def NeverCloses (ts : List Token) : Prop :=
  ∀ us, us <+: ts → us.count .closing ≤ us.count .opening

/-- In the tokens after a `(`, nothing closes it, and every further `(` is closed. -/
def LastUnclosed (ts : List Token) : Prop :=
  NeverCloses ts ∧ ∀ us vs, ts = us ++ .opening :: vs → ¬ NeverCloses vs

/-- A `(` with an expression and nothing else after it is the last one that is never closed. -/
theorem Grammatical.lastUnclosed (h : Grammatical ts) : LastUnclosed ts := by
  have run := h.run_eq
  constructor
  · rintro us ⟨vs, rfl⟩
    rw [Stance.run_append, Option.bind_eq_some_iff] at run
    obtain ⟨between, hus, -⟩ := run
    have := Stance.depth_add_count hus
    simp only [Stance.start] at this
    omega
  · rintro us vs rfl never
    rw [Stance.run_append, Option.bind_eq_some_iff] at run
    obtain ⟨between, -, hrest⟩ := run
    have balance := Stance.depth_add_count hrest
    rw [List.count_cons_self, List.count_cons_of_ne (by decide)] at balance
    dsimp only at balance
    have := never vs List.prefix_rfl
    omega

end ProductLine.Expr
