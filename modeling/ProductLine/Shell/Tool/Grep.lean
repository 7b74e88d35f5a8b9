/- # Searching lines — the tool `grep`

A line is selected if one of the patterns matches in it.  What is printed of
the selected lines, and of the lines around them, is for the options to say.
-/
import ProductLine.Shell.Regex.Read
import ProductLine.Shell.Tool.Files

namespace ProductLine.Shell.Tool

structure Search where
  patterns : List Regex
  foldsCase : Bool := false
  wholeWords : Bool := false
  wholeLines : Bool := false
  inverted : Bool := false

namespace Search

/-- The ends of the matches of a pattern that begin at a place, the longest first. -/
def endsAt (r : Regex) (s : Subject) (i : Nat) : List Nat :=
  if r.refersBack then ((r.matchAt s i).map Prod.fst).toList
  else Regex.downward (r.stops s i)

/-- A match from one place to another may be taken. -/
def allows (q : Search) (s : Subject) (i j : Nat) : Bool :=
  if q.wholeLines then i == 0 && j == s.text.size
  else if q.wholeWords then
    !s.wordBefore i && !s.wordAfter j
  else true

/-- The leftmost match from a place on, and of those the longest.  `fuel` bounds the places. -/
def find? (q : Search) (s : Subject) : (fuel : Nat) → (i : Nat) → Option (Nat × Nat)
  | 0, _ => none
  | fuel + 1, i =>
    if s.text.size < i then none
    else
      let ends := q.patterns.flatMap fun r => ((endsAt r s i).find? (q.allows s i)).toList
      match ends with
      | [] => find? q s fuel (i + 1)
      | first :: more => some (i, more.foldl max first)

/-- The matches in a line that are not empty.  `fuel` bounds them. -/
def all (q : Search) (s : Subject) : (fuel : Nat) → (i : Nat) → List (Nat × Nat)
  | 0, _ => []
  | fuel + 1, i =>
    match q.find? s (s.text.size + 2) i with
    | none => []
    | some (a, b) => if a < b then (a, b) :: all q s fuel b else all q s fuel (a + 1)

def subject (q : Search) (line : Chars) : Subject :=
  { text := line.toArray, foldsCase := q.foldsCase }

def selects (q : Search) (line : Chars) : Bool :=
  (q.find? (q.subject line) (line.length + 2) 0).isSome != q.inverted

end Search

structure GrepStyle where
  counts : Bool := false
  names : Option Bool := none
  numbers : Bool := false
  onlyMatches : Bool := false
  quiet : Bool := false
  silent : Bool := false
  most : Option Nat := none
  before : Nat := 0
  after : Nat := 0
  withNames : Bool := false
  asText : Bool := false

def grepName (name : Chars) : Chars :=
  if name == ['-'] then str "(standard input)" else name

def GrepStyle.front (style : GrepStyle) (name : Chars) (number : Nat) (mark : Char) : Chars :=
  (if style.withNames then name ++ [mark] else []) ++
    (if style.numbers then Chars.ofNat number ++ [mark] else [])

def GrepStyle.selected (style : GrepStyle) (q : Search) (name : Chars) (number : Nat)
    (line : Chars) : Chars :=
  if style.onlyMatches then
    if q.inverted then []
    else
      let s := q.subject line
      (q.all s (line.length + 2) 0).flatMap fun (i, j) =>
        style.front name number ':' ++ s.part i j ++ ['\n']
  else style.front name number ':' ++ line ++ ['\n']

def selectedLines (q : Search) (most : Option Nat) (lines : List Chars) : List Nat :=
  let numbers := (lines.zipIdx 1).filterMap fun (line, n) => if q.selects line then some n else none
  most.elim numbers numbers.take

/-- What is printed of lines, of which those with the given numbers are selected; `last` is the
number of the last line that was printed. -/
def GrepStyle.context (style : GrepStyle) (q : Search) (name : Chars) (selected : List Nat) :
    List (Chars × Nat) → (last : Nat) → Chars
  | [], _ => []
  | (line, n) :: rest, last =>
    let isSelected := selected.contains n
    let isNear := selected.any fun m => m ≤ n + style.before && n ≤ m + style.after
    if isSelected || isNear then
      let gap := if 0 < style.before + style.after && 0 < last && last + 1 < n then str "--\n"
        else []
      let shown := if isSelected then style.selected q name n line
        else if style.onlyMatches then [] else style.front name n '-' ++ line ++ ['\n']
      gap ++ shown ++ style.context q name selected rest n
    else style.context q name selected rest last

/-- Searches an input, and says whether lines were selected. -/
def grepInput (p : Process) (style : GrepStyle) (q : Search) (name : Chars) (text : Chars) :
    Act Bool := do
  let shownName := grepName name
  let lines := Chars.lines text
  let selected := selectedLines q style.most lines
  let found := !selected.isEmpty
  let prints := !style.counts && style.names.isNone && !style.quiet
  if style.quiet then return found
  else if style.counts then
    p.print ((if style.withNames then shownName ++ [':'] else []) ++
      Chars.ofNat selected.length ++ ['\n'])
    return found
  else if let some wanted := style.names then
    if wanted == found then p.print (shownName ++ ['\n'])
    return wanted == found
  else if prints && text.contains '\x00' && !style.asText then
    if found && !style.onlyMatches then
      p.print (p.name ++ str ": " ++ shownName ++ str ": binary file matches\n")
    return found
  else
    if 0 < style.before + style.after then
      p.print (style.context q shownName selected (lines.zipIdx 1) 0)
    else
      let shown := (lines.zipIdx 1).flatMap fun (line, n) =>
        if q.selects line then [(n, style.selected q shownName n line)] else []
      let shown := style.most.elim shown shown.take
      p.print (shown.flatMap Prod.snd)
    return found

def filesBelow (p : Process) : (depth : Nat) → Chars → Act (List Chars)
  | 0, _ => return []
  | depth + 1, path => do
    match ← p.node path with
    | .ok (place, .directory) =>
      (← entriesOf place).foldlM (fun sofar name => do
        return sofar ++ (← filesBelow p depth (below path name))) []
    | _ => return [path]

/-- Searches inputs, and says whether lines were selected and whether something went wrong. -/
def grepInputs (p : Process) (style : GrepStyle) (q : Search) :
    List Chars → (found failed : Bool) → Act (Bool × Bool)
  | [], found, failed => return (found, failed)
  | name :: rest, found, failed => do
    match ← p.readInput name with
    | .error fault =>
      if !style.silent then p.warn (Process.faultOf name fault)
      grepInputs p style q rest found true
    | .ok text =>
      let own ← grepInput p style q name text
      if own && style.quiet then throw (.exited 0)
      grepInputs p style q rest (found || own) failed

def grepOptions : OptionTable :=
  .ofLetters "EFGPivnclLoqswxhHrRyazbUuTVZ" "efmABCdD"
    [("extended-regexp", 'E', .nothing), ("fixed-strings", 'F', .nothing),
      ("basic-regexp", 'G', .nothing), ("perl-regexp", 'P', .nothing),
      ("ignore-case", 'i', .nothing), ("invert-match", 'v', .nothing),
      ("line-number", 'n', .nothing), ("count", 'c', .nothing),
      ("files-with-matches", 'l', .nothing), ("files-without-match", 'L', .nothing),
      ("only-matching", 'o', .nothing), ("quiet", 'q', .nothing), ("silent", 'q', .nothing),
      ("no-messages", 's', .nothing), ("word-regexp", 'w', .nothing),
      ("line-regexp", 'x', .nothing), ("no-filename", 'h', .nothing),
      ("with-filename", 'H', .nothing), ("recursive", 'r', .nothing), ("regexp", 'e', .argument),
      ("file", 'f', .argument), ("max-count", 'm', .argument), ("text", 'a', .nothing),
      ("after-context", 'A', .argument), ("before-context", 'B', .argument),
      ("context", 'C', .argument), ("color", '1', .optional), ("colour", '1', .optional),
      ("include", '2', .argument), ("exclude", '3', .argument)] 2

/-- The patterns that the options and the first argument give, and the other arguments. -/
def grepPatterns (p : Process) (given : List Given) (words : List Chars) :
    Act (List Chars × List Chars) := do
  let mut patterns : List Chars := []
  for (letter, argument) in given do
    if letter == 'e' then patterns := patterns ++ (argument.getD []).splitOn '\n'
    else if letter == 'f' then
      let path := argument.getD []
      match ← p.readInput path with
      | .ok text => patterns := patterns ++ Chars.lines text
      | .error fault => p.fail 2 (Process.faultOf path fault)
  if given.any fun g => g.1 == 'e' || g.1 == 'f' then return (patterns, words)
  else
    match words with
    | pattern :: rest => return (pattern.splitOn '\n', rest)
    | [] =>
      p.complain (str "Usage: " ++ p.name ++ str " [OPTION]... PATTERNS [FILE]...\nTry '" ++
        p.name ++ str " --help' for more information.\n")
      throw (.exited 2)

/-- The words of `grep` with a number option such as `-3` in its long form. -/
def withContextNumber (words : List Chars) : List Chars :=
  words.map fun word =>
    match word with
    | '-' :: c :: rest => if (c :: rest).all Char.isDigit then str "-C" ++ c :: rest else word
    | word => word

/-- The dialect of the patterns, by the letter of the option that asks for it. -/
def patternDialect (kind : Char) : RegexDialect :=
  if kind == 'E' || kind == 'P' then
    { extendedRegex with
      stranded := .skipped, strandedBounds := .skipped, braceIsText := true, closingIsText := true }
  else basicRegex

/-- A class whose brackets are missing: brackets whose text begins and ends with a colon. -/
def bareClass? : (fuel : Nat) → Chars → Bool
  | 0, _ => false
  | _, [] => false
  | fuel + 1, '\\' :: rest => bareClass? fuel (rest.drop 1)
  | fuel + 1, '[' :: rest =>
    let rest := if rest.head? == some '^' then rest.drop 1 else rest
    let inner := match rest with
      | ']' :: more => ']' :: more.takeWhile (· != ']')
      | _ => rest.takeWhile (· != ']')
    let isBare := inner.head? == some ':' && inner.getLast? == some ':' &&
      inner.any (· != ':') && !inner.contains '[' && !(inner.drop 1).contains '-'
    isBare || bareClass? fuel (rest.drop (inner.length + 1))
  | fuel + 1, _ :: rest => bareClass? fuel rest

/-- A pattern of a kind and what there is to warn of, or the fault in words. -/
def readPattern (kind : Char) (pattern : Chars) : Except String (Regex × List Chars) :=
  if kind == 'F' then .ok (Regex.ofText pattern, [])
  else
    match Regex.readNoting (patternDialect kind) pattern with
    | .ok found =>
      if bareClass? (pattern.length + 1) pattern then
        .error "character class syntax is [[:space:]], not [:space:]"
      else .ok found
    | .error fault => .error fault

/-- The program `grep`; `kind` is the letter of the option that is on from the start. -/
def grep (kind : Char) : Tool := fun p => do
  let (given, words) ←
    { p with words := p.name :: withContextNumber p.arguments }.options grepOptions
  let has (c : Char) : Bool := Given.has given c
  let (patterns, names) ← grepPatterns p given words
  let kind := (Given.lastOf? given "EFGP").getD kind
  match patterns.mapM (readPattern kind) with
  | .error complaint => p.fail 2 complaint.toList
  | .ok found =>
    for warning in found.flatMap Prod.snd do
      p.complain (p.name ++ str ": warning: " ++ warning ++ ['\n'])
    let q : Search :=
      { patterns := found.map Prod.fst, foldsCase := has 'i' || has 'y', wholeWords := has 'w'
        wholeLines := has 'x', inverted := has 'v' }
    let number (letter : Char) : Option Nat := (Given.last? given letter).bind Chars.toNat?
    let isRecursive := has 'r' || has 'R'
    let isBare := names.isEmpty
    let names := if isBare then (if isRecursive then [['.']] else [['-']]) else names
    let all ← if isRecursive then
        names.foldlM (fun sofar name => do
          let found ← filesBelow p maxDepth name
          return sofar ++ if isBare then found.map (·.drop 2) else found) []
      else pure names
    let allowed (path : Chars) : Bool :=
      let name := lastStep path
      let included := Given.all given '2'
      (included.isEmpty || included.any fun g => (Glob.ofText g).matches name) &&
        !(Given.all given '3').any fun g => (Glob.ofText g).matches name
    let all := all.filter fun path => !isRecursive || allowed path
    let style : GrepStyle :=
      { counts := has 'c' && !has 'l' && !has 'L'
        names := if has 'l' then some true else if has 'L' then some false else none
        numbers := has 'n', onlyMatches := has 'o', quiet := has 'q', silent := has 's'
        most := number 'm', asText := has 'a'
        before := ((number 'B').or (number 'C')).getD 0
        after := ((number 'A').or (number 'C')).getD 0
        withNames := match Given.lastOf? given "hH" with
          | some c => c == 'H'
          | none => 1 < names.length || isRecursive && all != names }
    let (found, failed) ← grepInputs p style q all false false
    p.awaitInputs all
    Process.done (if failed then 2 else if found then 0 else 1)

end ProductLine.Shell.Tool
