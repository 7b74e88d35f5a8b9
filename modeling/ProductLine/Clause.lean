/- # Clauses — disjunctions of literals

A clause keeps its literals in order and admits repetitions; the order is
what its text shows.  `isTautology` and `subsumes` look at the literals
alone, which is all that truth and implication of clauses depend on: the
first holds of the clauses that every assignment satisfies, and between
clauses of which the second is no tautology, the second is implication.
-/
import ProductLine.Literal

namespace ProductLine

/-- A disjunction of literals. -/
structure Clause where
  literals : List Literal
deriving DecidableEq

namespace Clause

def size (c : Clause) : Nat := c.literals.length

def eval (σ : Assignment) (c : Clause) : Bool :=
  c.literals.any (Literal.eval σ)

/-- The value of a list of clauses read as their conjunction. -/
def evalAll (σ : Assignment) (cs : List Clause) : Bool :=
  cs.all (Clause.eval σ)

/-- Some feature occurs with both polarities. -/
def isTautology (c : Clause) : Bool :=
  c.literals.any fun l => c.literals.contains l.negate

/-- Every literal of `c` is a literal of `d`. -/
def subsumes (c d : Clause) : Bool :=
  c.literals.all d.literals.contains

/-- Adds a literal at the end, unless it is there already. -/
def insert (c : Clause) (l : Literal) : Clause :=
  if c.literals.contains l then c else ⟨c.literals ++ [l]⟩

/-- The literals of `c`, then those of `d` that are new, each once. -/
def merge (c d : Clause) : Clause :=
  d.literals.foldl insert c

/-- The literals' texts with ` | ` between them. -/
def text (c : Clause) : String :=
  " | ".intercalate (c.literals.map Literal.text)

/-! ## Truth and membership -/

theorem eval_eq_true_iff {σ : Assignment} {c : Clause} :
    c.eval σ = true ↔ ∃ l ∈ c.literals, l.eval σ = true := by
  simp only [eval, List.any_eq_true]

@[simp] theorem evalAll_nil (σ : Assignment) : evalAll σ [] = true := rfl

theorem evalAll_append (σ : Assignment) (cs ds : List Clause) :
    evalAll σ (cs ++ ds) = (evalAll σ cs && evalAll σ ds) :=
  List.all_append

theorem isTautology_iff {c : Clause} :
    c.isTautology = true ↔ ∃ l ∈ c.literals, l.negate ∈ c.literals := by
  simp only [isTautology, List.any_eq_true, List.contains_iff_mem]

theorem isTautology_eq_false_iff {c : Clause} :
    c.isTautology = false ↔ ∀ l ∈ c.literals, l.negate ∉ c.literals := by
  rw [Bool.eq_false_iff, Ne, isTautology_iff]
  constructor
  · intro h l hl hnegate
    exact h ⟨l, hl, hnegate⟩
  · rintro h ⟨l, hl, hnegate⟩
    exact h l hl hnegate

theorem subsumes_iff {c d : Clause} :
    c.subsumes d = true ↔ ∀ l ∈ c.literals, l ∈ d.literals := by
  simp only [subsumes, List.all_eq_true, List.contains_iff_mem]

theorem mem_literals_insert {c : Clause} {k l : Literal} :
    l ∈ (c.insert k).literals ↔ l ∈ c.literals ∨ l = k := by
  unfold insert
  split
  case isTrue h =>
    constructor
    · exact Or.inl
    · rintro (h' | rfl)
      · exact h'
      · exact List.contains_iff_mem.1 h
  case isFalse => simp only [List.mem_append, List.mem_singleton]

theorem mem_literals_merge {c d : Clause} {l : Literal} :
    l ∈ (c.merge d).literals ↔ l ∈ c.literals ∨ l ∈ d.literals := by
  obtain ⟨ls⟩ := d
  unfold merge
  induction ls generalizing c with
  | nil => simp only [List.foldl_nil, List.not_mem_nil, or_false]
  | cons k ls ih =>
    rw [List.foldl_cons, ih, mem_literals_insert, List.mem_cons, or_assoc]

end Clause

end ProductLine
