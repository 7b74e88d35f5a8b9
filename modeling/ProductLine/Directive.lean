/- # Directives — the kinds of statement in a source

A directive is named by its keyword, which is matched exactly.
-/

namespace ProductLine

/-- The kinds of statement, in the order in which they are listed. -/
inductive Directive where
  | mandatory
  | optional
  | declared
  | constraint
  | alternative
  | excluded
deriving DecidableEq

namespace Directive

def all : List Directive :=
  [mandatory, optional, declared, constraint, alternative, excluded]

def keyword : Directive → String
  | mandatory => "mandatory"
  | optional => "optional"
  | declared => "declared"
  | constraint => "constraint"
  | alternative => "alternative"
  | excluded => "excluded"

def ofKeyword? (word : String) : Option Directive :=
  all.find? fun d => d.keyword == word

def index (d : Directive) : Nat :=
  all.idxOf d

theorem ofKeyword?_keyword (d : Directive) : ofKeyword? d.keyword = some d := by
  cases d <;> decide

theorem keyword_of_ofKeyword? {word : String} {d : Directive} (h : ofKeyword? word = some d) :
    d.keyword = word := by
  simpa using List.find?_some h

end Directive

end ProductLine
