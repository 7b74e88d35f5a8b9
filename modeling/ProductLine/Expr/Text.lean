/- # Writing expressions — the fewest parentheses that keep the tree

`!` binds tighter than `&`, and `&` tighter than `|`; both binary operators
associate to the left.  An operand is put in parentheses exactly where it
binds too loosely for its place.  The right operand of a binary operator has
to bind tighter than that operator, so a tree that leans to the right is
written with parentheses and one that leans to the left without.
-/
import ProductLine.Expr.Basic

namespace ProductLine.Expr

/-- How tightly the outermost operator binds. -/
def precedence : Expr → Nat
  | or .. => 1
  | and .. => 2
  | not _ => 3
  | var _ => 4

def enclose (needed : Bool) (text : String) : String :=
  if needed then "(" ++ text ++ ")" else text

def text : Expr → String
  | var f => f.name
  | not a => "!" ++ enclose (a.precedence < 3) a.text
  | and a b => enclose (a.precedence < 2) a.text ++ " & " ++ enclose (b.precedence < 3) b.text
  | or a b => enclose (a.precedence < 1) a.text ++ " | " ++ enclose (b.precedence < 2) b.text

end ProductLine.Expr
