/- # Reading expressions — from tokens to a tree

The grammar, with `~` already read as `!`:

    expr   := term ('|' term)*
    term   := factor ('&' factor)*
    factor := '!' factor | '(' expr ')' | feature

Binary operators associate to the left, and parentheses add no node.

Two bounds hold at once, both of 256.  The *nesting* counts the `!` operands
and open parentheses around a place, and is checked before reading goes one
level deeper: it is the argument on which `factor` recurs.  The *height* is
that of the tree, and is checked after each operator.

A reader takes the tokens that are left and hands back a tree together with
the tokens that remain.  That these are fewer is part of the result, which
is why the loop over an operator ends.
-/
import ProductLine.Expr.Token

namespace ProductLine.Expr

/-- A tree that carries its height. -/
structure Measured where
  tree : Expr
  height : Nat
  height_eq : height = tree.height

/-- What reading hands back: a tree and fewer tokens than there were. -/
abbrev ReadFrom (ts : List Placed) :=
  { r : Measured × List Placed // r.2.length < ts.length }

abbrev Reader :=
  (ts : List Placed) → Except SyntaxFault (ReadFrom ts)

namespace Measured

def var (f : Feature) : Measured := ⟨.var f, 1, rfl⟩

def not (a : Measured) : Measured :=
  ⟨.not a.tree, a.height + 1, by rw [a.height_eq, Expr.height]⟩

/-- The tree, unless it is higher than `maxDepth`; then its operator in `column` is to blame. -/
def bounded (column : Nat) (a : Measured) : Except SyntaxFault Measured :=
  if a.height > maxDepth then .error ⟨column, .tooDeep⟩ else .ok a

end Measured

inductive Junction where
  | and
  | or
deriving DecidableEq

namespace Junction

def token : Junction → Token
  | and => .and
  | or => .or

/-- The operator applied to two operands. -/
def join : Junction → Measured → Measured → Measured
  | and, a, b => ⟨.and a.tree b.tree, max a.height b.height + 1, by
      rw [a.height_eq, b.height_eq, Expr.height]⟩
  | or, a, b => ⟨.or a.tree b.tree, max a.height b.height + 1, by
      rw [a.height_eq, b.height_eq, Expr.height]⟩

end Junction

/-- Reads `op item` as often as `op` comes next, and joins the operands to `left` one by one. -/
def chainFrom (op : Junction) (item : Reader) (left : Measured) (ts : List Placed) :
    Except SyntaxFault { r : Measured × List Placed // r.2.length ≤ ts.length } :=
  match ts with
  | [] => .ok ⟨(left, []), Nat.le_refl _⟩
  | t :: rest =>
    if t.token = op.token then
      match item rest with
      | .error fault => .error fault
      | .ok ⟨(right, rest'), shorter⟩ =>
        match (op.join left right).bounded t.column with
        | .error fault => .error fault
        | .ok joined =>
          match chainFrom op item joined rest' with
          | .error fault => .error fault
          | .ok ⟨r, h⟩ => .ok ⟨r, Nat.le_succ_of_le (Nat.le_of_lt (Nat.lt_of_le_of_lt h shorter))⟩
    else
      .ok ⟨(left, t :: rest), Nat.le_refl _⟩
termination_by ts.length
decreasing_by simp only [List.length_cons] at *; omega

/-- Reads `item (op item)*`. -/
def chain (op : Junction) (item : Reader) : Reader := fun ts =>
  match item ts with
  | .error fault => .error fault
  | .ok ⟨(left, rest), shorter⟩ =>
    match chainFrom op item left rest with
    | .error fault => .error fault
    | .ok ⟨r, h⟩ => .ok ⟨r, Nat.lt_of_le_of_lt h shorter⟩

def disjunction (item : Reader) : Reader :=
  chain .or (chain .and item)

def negation (column : Nat) (item : Reader) : Reader := fun ts =>
  match item ts with
  | .error fault => .error fault
  | .ok ⟨(body, rest), shorter⟩ =>
    match body.not.bounded column with
    | .error fault => .error fault
    | .ok negated => .ok ⟨(negated, rest), shorter⟩

def enclosed (column : Nat) (item : Reader) : Reader := fun ts =>
  match disjunction item ts with
  | .error fault => .error fault
  | .ok ⟨(_, []), _⟩ => .error ⟨column, .unclosed⟩
  | .ok ⟨(inner, t :: rest), shorter⟩ =>
    match t.token with
    | .closing => .ok ⟨(inner, rest), Nat.lt_of_succ_lt shorter⟩
    | found => .error ⟨t.column, .closingExpected found⟩

/-- Reads a factor with at most `levels` levels of `!` and `(` in it.  A text that ends too early
is to blame in `endColumn`, the column after its last character. -/
def factor (endColumn : Nat) : (levels : Nat) → Reader
  | _, [] => .error ⟨endColumn, .unexpectedEnd⟩
  | levels, ⟨column, token⟩ :: rest =>
    let deeper (read : Reader → Reader) : Except SyntaxFault (ReadFrom (⟨column, token⟩ :: rest)) :=
      match levels with
      | 0 => .error ⟨column, .tooDeep⟩
      | levels + 1 =>
        match read (factor endColumn levels) rest with
        | .error fault => .error fault
        | .ok ⟨r, h⟩ => .ok ⟨r, Nat.lt_succ_of_lt h⟩
    match token with
    | .not => deeper (negation column)
    | .opening => deeper (enclosed column)
    | .feature f => .ok ⟨(Measured.var f, rest), Nat.lt_succ_self _⟩
    | found => .error ⟨column, .operandExpected found⟩

def ofTokens (endColumn : Nat) (ts : List Placed) : Except SyntaxFault Expr :=
  if ts.isEmpty then
    .error ⟨1, .empty⟩
  else
    match disjunction (factor endColumn maxDepth) ts with
    | .error fault => .error fault
    | .ok ⟨(e, []), _⟩ => .ok e.tree
    | .ok ⟨(_, t :: _), _⟩ => .error ⟨t.column, .leftover t.token⟩

def ofChars (cs : List Char) : Except SyntaxFault Expr :=
  match scan 1 cs with
  | .error fault => .error fault
  | .ok ts => ofTokens (cs.length + 1) ts

def parse (text : String) : Except SyntaxFault Expr :=
  ofChars text.toList

end ProductLine.Expr
