/- # Regular expressions — the leftmost match, and of those the longest

A match is found in two steps.  `Regex.stops` says where a match that begins
at a place can end; the longest one is taken.  `Regex.span` then cuts the
match into parts, every part being as long as it can be while the rest still
fits.  An expression that refers back to what a group has matched has no
such places by itself; it is matched by backtracking, with the ends tried
from the last one on.
-/
import ProductLine.Shell.Glob

namespace ProductLine.Shell

/-- A regular expression. -/
inductive Regex where
  | empty
  | char (c : Char)
  | any
  | set (inverted : Bool) (members : Chars)
  | lineStart
  | lineEnd
  | textStart
  | textEnd
  | wordEdge (start stop : Bool)
  | insideWord
  | group (index : Nat) (body : Regex)
  | back (index : Nat)
  | sequence (first second : Regex)
  | either (first second : Regex)
  | times (least : Nat) (most : Option Nat) (body : Regex)
deriving Inhabited

/-- A text to match, and how: regardless of case, and with lines that end inside it. -/
structure Subject where
  text : Array Char
  foldsCase : Bool := false
  manyLines : Bool := false
  startsLine : Bool := true

abbrev Groups := List (Nat × Nat × Nat)

def isWordChar (c : Char) : Bool := Chars.isNameChar c

namespace Subject

def same (s : Subject) (c d : Char) : Bool :=
  c == d || (s.foldsCase && c.toLower == d.toLower)

def isIn (s : Subject) (members : Chars) (c : Char) : Bool :=
  members.contains c ||
    (s.foldsCase && (members.contains c.toLower || members.contains c.toUpper))

def wordBefore (s : Subject) (i : Nat) : Bool :=
  0 < i && (s.text[i - 1]?).any isWordChar

def wordAfter (s : Subject) (i : Nat) : Bool :=
  (s.text[i]?).any isWordChar

/-- The expression, which takes up no room, holds at the place. -/
def holds (s : Subject) (i : Nat) : Regex → Bool
  | .empty => true
  | .lineStart =>
    (i == 0 && s.startsLine) || (s.manyLines && 0 < i && s.text[i - 1]? == some '\n')
  | .lineEnd => i == s.text.size || (s.manyLines && s.text[i]? == some '\n')
  | .textStart => i == 0 && s.startsLine
  | .textEnd => i == s.text.size
  | .wordEdge start stop =>
    (start && !s.wordBefore i && s.wordAfter i) || (stop && s.wordBefore i && !s.wordAfter i)
  | .insideWord => s.wordBefore i == s.wordAfter i
  | _ => false

/-- The expression, which is for a single character, accepts the one at the place. -/
def accepts (s : Subject) (i : Nat) (r : Regex) : Bool :=
  match s.text[i]?, r with
  | none, _ => false
  | some c, .char d => s.same c d
  | some _, .any => true
  | some c, .set inverted members => s.isIn members c != inverted
  | some _, _ => false

def part (s : Subject) (i j : Nat) : Chars :=
  (s.text.extract i j).toList

end Subject

def addPlaces (places more : List Nat) : List Nat :=
  more.foldl (fun places i => if places.contains i then places else i :: places) places

def closure (step : Nat → List Nat) : (fuel : Nat) → (least : Nat) → (most : Option Nat) →
    (reached : List Nat) → (frontier : List Nat) → List Nat
  | 0, _, _, reached, _ => reached
  | fuel + 1, least, most, reached, frontier =>
    if frontier.isEmpty then reached
    else
      let reached := if least = 0 then addPlaces reached frontier else reached
      if most = some 0 then reached
      else
        let next := addPlaces [] (frontier.flatMap step)
        let next := if least = 0 then next.filter (!reached.contains ·) else next
        closure step fuel (least - 1) (most.map (· - 1)) reached next

namespace Regex

/-- The places where a match that begins at a place can end. -/
def stops (s : Subject) : Regex → Nat → List Nat
  | group _ body, i => stops s body i
  | back _, _ => []
  | sequence first second, i => addPlaces [] ((stops s first i).flatMap (stops s second))
  | either first second, i => addPlaces (stops s first i) (stops s second i)
  | times least most body, i =>
    closure (stops s body) (s.text.size + least + 2) least most [] [i]
  | char c, i => if s.accepts i (char c) then [i + 1] else []
  | any, i => if s.accepts i any then [i + 1] else []
  | set inverted members, i => if s.accepts i (set inverted members) then [i + 1] else []
  | r, i => if s.holds i r then [i] else []

def downward (places : List Nat) : List Nat :=
  places.mergeSort (· ≥ ·)

/-- Cuts the part from `i` to `j` into repetitions, each as long as it can be. -/
def spanTimes (stops : Nat → List Nat) (span : Nat → Nat → Groups → Option Groups) :
    (fuel : Nat) → (least : Nat) → (most : Option Nat) → (i j : Nat) → Groups → Option Groups
  | 0, _, _, _, _, _ => none
  | fuel + 1, least, most, i, j, groups =>
    if least = 0 && i == j then some groups
    else if most = some 0 then none
    else
      (downward ((stops i).filter fun k => k ≤ j && (i < k || 0 < least))).findSome? fun k =>
        match span i k groups with
        | none => none
        | some groups =>
          spanTimes stops span fuel (least - 1) (most.map (· - 1)) k j groups

/-- What the groups match if the expression matches the part from `i` to `j`. -/
def span (s : Subject) : Regex → (i j : Nat) → Groups → Option Groups
  | group index body, i, j, groups =>
    (span s body i j groups).map fun groups =>
      (index, i, j) :: groups.filter (·.1 ≠ index)
  | sequence first second, i, j, groups =>
    (downward ((first.stops s i).filter (· ≤ j))).findSome? fun k =>
      if (second.stops s k).contains j then
        (span s first i k groups).bind fun groups => span s second k j groups
      else none
  | either first second, i, j, groups =>
    if (first.stops s i).contains j then span s first i j groups else span s second i j groups
  | times least most body, i, j, groups =>
    spanTimes (body.stops s) (span s body) (j - i + least + 2) least most i j groups
  | r, i, j, groups => if (r.stops s i).contains j then some groups else none

def refersBack : Regex → Bool
  | back _ => true
  | group _ body | times _ _ body => body.refersBack
  | sequence first second | either first second => first.refersBack || second.refersBack
  | _ => false

def groupText (s : Subject) (groups : Groups) (index : Nat) : Chars :=
  match groups.lookup index with
  | some (i, j) => s.part i j
  | none => []

/-- Matches from a place on, such that `next` accepts where the match ends. -/
def backtrack (s : Subject) : (fuel : Nat) → Regex → (i : Nat) → Groups →
    (next : Nat → Groups → Option Groups) → Option Groups
  | 0, _, _, _, _ => none
  | fuel + 1, r, i, groups, next =>
    match r with
    | group index body =>
      backtrack s fuel body i groups fun j groups =>
        next j ((index, i, j) :: groups.filter (·.1 ≠ index))
    | back index =>
      let text := groupText s groups index
      let here := s.part i (i + text.length)
      if (groups.lookup index).isSome && here.length == text.length &&
          (here.zip text).all fun (c, d) => s.same c d
      then next (i + text.length) groups else none
    | sequence first second =>
      backtrack s fuel first i groups fun j groups => backtrack s fuel second j groups next
    | either first second =>
      match backtrack s fuel first i groups next with
      | some found => some found
      | none => backtrack s fuel second i groups next
    | times least most body =>
      let again : Option Groups :=
        if most = some 0 then none
        else backtrack s fuel body i groups fun j groups =>
          if i < j || 0 < least then
            backtrack s fuel (times (least - 1) (most.map (· - 1)) body) j groups next
          else none
      match again with
      | some found => some found
      | none => if least = 0 then next i groups else none
    | r =>
      match r.stops s i with
      | j :: _ => next j groups
      | [] => none

/-- The longest match that begins at a place: where it ends, and what the groups have matched. -/
def matchAt (r : Regex) (s : Subject) (i : Nat) : Option (Nat × Groups) :=
  if r.refersBack then
    (downward ((List.range (s.text.size + 1 - i)).map (i + ·))).findSome? fun j =>
      (r.backtrack s (8 * s.text.size + 400) i [] fun k groups =>
        if k == j then some groups else none).map fun groups => (j, groups)
  else
    match downward (r.stops s i) with
    | [] => none
    | j :: _ => some (j, (r.span s i j []).getD [])

/-- The leftmost match that begins at a place from `i` on, and of those the longest: its ends and
its groups. -/
def search (r : Regex) (s : Subject) (i : Nat) : Option (Nat × Nat × Groups) :=
  ((List.range (s.text.size + 1 - i)).map (i + ·)).findSome? fun k =>
    (r.matchAt s k).map fun (j, groups) => (k, j, groups)

def occursIn (r : Regex) (s : Subject) : Bool :=
  if r.refersBack then (r.search s 0).isSome
  else (List.range (s.text.size + 1)).any fun i => !(r.stops s i).isEmpty

end Regex

end ProductLine.Shell
