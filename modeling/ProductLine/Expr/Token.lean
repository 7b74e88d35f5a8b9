/- # Tokens — the words of the expression language

A text is a sequence of operators, parentheses and names, with white space
between them where it is wanted.  `~` is another spelling of `!`.  A token
keeps its column, counted in characters from 1, because every fault is
reported by column.
-/
import ProductLine.Expr.Basic
import ProductLine.Text.Blank

namespace ProductLine

open Text (isBlank)

/-- A token of the expression language. -/
inductive Token where
  | feature (f : Feature)
  | and
  | or
  | not
  | opening
  | closing
deriving DecidableEq

/-- The token in the quotation marks of a message. -/
def Token.text : Token → String
  | feature f => "`" ++ f.name ++ "`"
  | and => "`&`"
  | or => "`|`"
  | not => "`!`"
  | opening => "`(`"
  | closing => "`)`"

/-- The token that a character spells by itself. -/
def Token.ofSymbol? : Char → Option Token
  | '&' => some and
  | '|' => some or
  | '!' | '~' => some not
  | '(' => some opening
  | ')' => some closing
  | _ => none

/-- A token and the column where it starts. -/
structure Placed where
  column : Nat
  token : Token
deriving DecidableEq

/-! ## Faults of an expression's text -/

/-- Why a text is not an expression. -/
inductive SyntaxCause where
  | unexpectedCharacter (c : Char)
  | empty
  | tooDeep
  | unexpectedEnd
  | operandExpected (found : Token)
  | closingExpected (found : Token)
  | unclosed
  | leftover (found : Token)
deriving DecidableEq

/-- The bound on the height of a tree and on the nesting of negations and parentheses. -/
def maxDepth : Nat := 256

def SyntaxCause.message : SyntaxCause → String
  | unexpectedCharacter c => "unexpected character `" ++ String.ofList [c] ++ "`"
  | empty => "empty expression"
  | tooDeep => "expression nested too deeply (more than " ++ toString maxDepth ++ " levels)"
  | unexpectedEnd => "unexpected end of expression"
  | operandExpected found => "expected a feature, `!` or `(`, found " ++ found.text
  | closingExpected found => "expected `)`, found " ++ found.text
  | unclosed => "unclosed `(`"
  | leftover found => "unexpected " ++ found.text

/-- A cause and the column it is blamed on. -/
structure SyntaxFault where
  column : Nat
  cause : SyntaxCause
deriving DecidableEq

/-- The cause and its column in words. -/
def SyntaxFault.message (fault : SyntaxFault) : String :=
  fault.cause.message ++ " at column " ++ toString fault.column

/-! ## From characters to tokens -/

/-- The tokens of a text whose first character stands in `column`.  A name takes all the identifier
characters it can get; the first character that starts no token is the fault. -/
def scan (column : Nat) (cs : List Char) : Except SyntaxFault (List Placed) :=
  match cs with
  | [] => .ok []
  | c :: rest =>
    if isBlank c then
      scan (column + 1) rest
    else match Token.ofSymbol? c with
      | some token => (scan (column + 1) rest).map (⟨column, token⟩ :: ·)
      | none =>
        if h : isIdentifierChar c then
          let column' := column + 1 + (rest.takeWhile isIdentifierChar).length
          (scan column' (rest.dropWhile isIdentifierChar)).map
            (⟨column, .feature (Feature.ofRun c rest h)⟩ :: ·)
        else
          .error ⟨column, .unexpectedCharacter c⟩
termination_by cs.length
decreasing_by
  · simp
  · simp
  · have := (List.dropWhile_sublist isIdentifierChar (l := rest)).length_le
    simp only [List.length_cons]
    omega

end ProductLine
