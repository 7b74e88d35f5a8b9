/- # Programs of `awk` — rules, statements and expressions

A program is a list of rules.  A rule says on which records something is
done, and what; without saying what, the record is printed.
-/
import ProductLine.Shell.Regex

namespace ProductLine.Shell.Record

/-- Where a record is read from: from the inputs of the program, from a file, or from a command. -/
inductive Origin where
  | inputs
  | file
  | command
deriving DecidableEq

/-- What is computed of two numbers. -/
inductive Operation where
  | sum
  | difference
  | product
  | quotient
  | remainder
  | power
deriving DecidableEq

/-- How two values may stand to each other. -/
inductive Relation where
  | less
  | atMost
  | equal
  | unequal
  | greater
  | atLeast
deriving DecidableEq

inductive Expr where
  | number (x : Float)
  | text (s : Chars)
  | regex (r : Regex)
  | name (n : Chars)
  | item (array : Chars) (index : List Expr)
  | field (index : Expr)
  | assign (target : Expr) (op : Option Operation) (value : Expr)
  | choice (test yes no : Expr)
  | both (a b : Expr)
  | either (a b : Expr)
  | contains (index : List Expr) (array : Chars)
  | matching (negated : Bool) (text pattern : Expr)
  | arithmetic (op : Operation) (a b : Expr)
  | comparison (r : Relation) (a b : Expr)
  | joined (a b : Expr)
  | not (e : Expr)
  | negative (e : Expr)
  | positive (e : Expr)
  | step (first up : Bool) (target : Expr)
  | group (e : Expr)
  | call (function : Chars) (arguments : List Expr)
  | builtin (function : String) (arguments : List Expr)
  | getline (origin : Origin) (source : Option Expr) (target : Option Expr)
deriving Inhabited

/-- Where the output of a statement goes besides the output of the program: into a file, behind what
is in a file, or into a command. -/
inductive Sink where
  | file
  | appended
  | command
deriving DecidableEq

inductive Statement where
  | expression (e : Expr)
  | print (formatted : Bool) (items : List Expr) (sink : Option (Sink × Expr))
  | conditional (test : Expr) (yes : Statement) (no : Option Statement)
  | loop (test : Expr) (body : Statement)
  | loopAfter (body : Statement) (test : Expr)
  | loopSteps (start : Option Statement) (test : Option Expr) (next : Option Statement)
      (body : Statement)
  | loopOver (name array : Chars) (body : Statement)
  | block (body : List Statement)
  | next
  | nextFile
  | exit (code : Option Expr)
  | stop
  | onward
  | delete (array : Chars) (index : Option (List Expr))
  | result (value : Option Expr)
deriving Inhabited

/-- On which records a rule acts: before all of them, after all of them, on each, on those that pass
a test, or on those from one that passes a test to one that passes another. -/
inductive Pattern where
  | first
  | last
  | always
  | test (e : Expr)
  | range (start stop : Expr)

structure Rule where
  pattern : Pattern
  body : Option Statement

structure Function where
  parameters : List Chars
  body : Statement

structure Script where
  rules : List Rule := []
  functions : List (Chars × Function) := []

end ProductLine.Shell.Record
