/- # Comparing files — the tools `cmp` and `diff`

What two files share is a common part of their lines that is as long as
possible; what stands between lines of it are the changes.  A change of lines
on one side only is moved as far down as it goes.
-/
import ProductLine.Shell.Tool.Basic

namespace ProductLine.Shell.Compare

/-- Ends with a hint at the help, as these programs give it. -/
def failWithHint {α : Type} (p : Process) (text : Chars) : Act α := do
  p.warn text
  p.fail 2 (str "Try '" ++ p.name ++ str " --help' for more information.")

def optionsOf (p : Process) (t : OptionTable) : Act (List Given × List Chars) := do
  match t.read (p.arguments.length + 1) p.arguments with
  | .ok result => return result
  | .error complaint => failWithHint p complaint

def readOne (p : Process) (name : Chars) : Act Chars := do
  match ← p.readInput name with
  | .ok text => return text
  | .error fault => p.fail 2 (Process.faultOf name fault)

/-! ## Bytes -/

/-- The places and values of bytes that differ. -/
def differences (a b : Chars) : List (Nat × Char × Char) :=
  ((a.zip b).zipIdx.filter fun (pair, _) => pair.1 != pair.2).map fun (pair, i) =>
    (i + 1, pair.1, pair.2)

def octal (c : Char) : Chars := Nat.toDigits 8 c.toNat

/-- The complaint about an input that ends first. -/
def ending (name text : Chars) (withLine : Bool) : Chars :=
  if text.isEmpty then str "EOF on " ++ name ++ str " which is empty"
  else
    let line := text.count '\n'
    str "EOF on " ++ name ++ str " after byte " ++ Chars.ofNat text.length ++
      if !withLine then []
      else if text.getLast? == some '\n' then str ", line " ++ Chars.ofNat line
      else str ", in line " ++ Chars.ofNat (line + 1)

def bytes (p : Process) (given : List Given) (first second : Chars × Chars) : Act Unit := do
  let has (c : Char) : Bool := Given.has given c
  let found := differences first.2 second.2
  if first.2 == second.2 then return
  else if has 's' then Process.done 1
  else
    let show' (c : Char) : Chars := Chars.padLeft 3 (octal c)
    let width := (Chars.ofNat (max first.2.length second.2.length)).length
    match has 'l', found with
    | true, found =>
      p.print (found.flatMap fun (place, x, y) =>
        Chars.padLeft width (Chars.ofNat place) ++ ' ' :: show' x ++ ' ' :: show' y ++ ['\n'])
    | false, (place, x, y) :: _ =>
      let line := (first.2.take (place - 1)).count '\n' + 1
      let where' := Chars.ofNat place ++ str ", line " ++ Chars.ofNat line
      p.print (first.1 ++ ' ' :: second.1 ++
        if has 'b' then
          str " differ: byte " ++ where' ++ str " is " ++ show' x ++ ' ' :: x :: ' ' :: show' y ++
            ' ' :: y :: ['\n']
        else str " differ: char " ++ where' ++ ['\n'])
      Process.done 1
    | false, [] => pure ()
    if first.2.length != second.2.length then
      let (name, text) := if first.2.length < second.2.length then first else second
      p.warn (ending name text (!has 'l'))
    Process.done 1

/-! ## Lines -/

/-- Line numbers of a change on both sides, from and up to, counted from zero. -/
structure Change where
  oldStart : Nat
  oldStop : Nat
  newStart : Nat
  newStop : Nat

/-- The lengths of the longest common parts of what is left of two lists, a row for each place in
the first one, the last place first. -/
def commonRows (same : Chars → Chars → Bool) (old new : List Chars) : List (List Nat) :=
  let empty := List.replicate (new.length + 1) 0
  old.reverse.foldl (fun rows line =>
    let below := rows.headD empty
    let row := (new.zip (below.zip (below.drop 1))).foldr (fun (other, here, after) row =>
      let best := if same line other then after + 1 else max here (row.headD 0)
      best :: row) [0]
    row :: rows) [empty]

/-- The pairs of places at which two lists share lines.  `fuel` bounds the steps. -/
def commonPairs (same : Chars → Chars → Bool) :
    (fuel : Nat) → (i j : Nat) → (old new : List Chars) → List (List Nat) → List (Nat × Nat)
  | 0, _, _, _, _, _ => []
  | fuel + 1, i, j, x :: old, y :: new, row :: rows =>
    if same x y then
      (i, j) :: commonPairs same fuel (i + 1) (j + 1) old new (rows.map (·.drop 1))
    else
      let below := (rows.headD []).headD 0
      let beside := (row.drop 1).headD 0
      if beside ≤ below then commonPairs same fuel (i + 1) j old (y :: new) rows
      else commonPairs same fuel i (j + 1) (x :: old) new ((row :: rows).map (·.drop 1))
  | _, _, _, _, _, _ => []

def changesBetween (oldCount newCount : Nat) : (i j : Nat) → List (Nat × Nat) → List Change
  | i, j, [] => if i < oldCount || j < newCount then [⟨i, oldCount, j, newCount⟩] else []
  | i, j, (x, y) :: rest =>
    let others := changesBetween oldCount newCount (x + 1) (y + 1) rest
    if i < x || j < y then ⟨i, x, j, y⟩ :: others else others

/-- A change of lines on one side, moved down while the line behind it is the first one of it.
`fuel` bounds the steps. -/
def moved (same : Chars → Chars → Bool) (old new : Array Chars) (limit : Nat) :
    (fuel : Nat) → Change → Change
  | 0, c => c
  | fuel + 1, c =>
    let next : Change := ⟨c.oldStart + 1, c.oldStop + 1, c.newStart + 1, c.newStop + 1⟩
    let (lines, start, stop) := if c.oldStart == c.oldStop then (new, c.newStart, c.newStop)
      else (old, c.oldStart, c.oldStop)
    let isOneSided := c.oldStart == c.oldStop || c.newStart == c.newStop
    match lines[start]?, lines[stop]? with
    | some first, some behind =>
      if isOneSided && c.oldStop < limit && same first behind then
        moved same old new limit fuel next
      else c
    | _, _ => c

/-- The changes that make the second list of lines out of the first one. -/
def changes (same : Chars → Chars → Bool) (old new : List Chars) : List Change :=
  let rows := commonRows same old new
  let pairs := commonPairs same (old.length + new.length + 1) 0 0 old new rows
  let found := changesBetween old.length new.length 0 0 pairs
  let limits := (found.drop 1).map Change.oldStart ++ [old.length]
  (found.zip limits).map fun (c, limit) =>
    moved same old.toArray new.toArray limit (old.length + new.length) c

/-- A line behind a sign, and a remark if it has no line feed. -/
def marked (sign : Chars) (line : Chars) : Chars :=
  if line.getLast? == some '\n' then sign ++ line
  else sign ++ line ++ str "\n\\ No newline at end of file\n"

def between (lines : List Chars) (start stop : Nat) : List Chars :=
  (lines.drop start).take (stop - start)

def range (start stop : Nat) : Chars :=
  if stop ≤ start then Chars.ofNat start
  else if stop = start + 1 then Chars.ofNat stop
  else Chars.ofNat (start + 1) ++ ',' :: Chars.ofNat stop

def Change.plain (c : Change) (old new : List Chars) : Chars :=
  let gone := (between old c.oldStart c.oldStop).flatMap (marked (str "< "))
  let added := (between new c.newStart c.newStop).flatMap (marked (str "> "))
  let letter := if c.oldStart == c.oldStop then 'a'
    else if c.newStart == c.newStop then 'd'
    else 'c'
  range c.oldStart c.oldStop ++ letter :: range c.newStart c.newStop ++ '\n' :: gone ++
    (if letter == 'c' then str "---\n" else []) ++ added

/-- Changes that are shown together since few lines are between them. -/
def groups (context : Nat) : List Change → List (List Change)
  | [] => []
  | c :: rest =>
    match groups context rest with
    | (next :: more) :: others =>
      if next.oldStart ≤ c.oldStop + 2 * context then (c :: next :: more) :: others
      else [c] :: (next :: more) :: others
    | others => [c] :: others

def span (start stop : Nat) : Chars :=
  if stop = start + 1 then Chars.ofNat stop
  else Chars.ofNat (if stop ≤ start then start else start + 1) ++ ',' :: Chars.ofNat (stop - start)

def unifiedLines (old new : List Chars) (stop : Nat) : (place : Nat) → List Change → Chars
  | place, [] => (between old place stop).flatMap (marked [' '])
  | place, c :: rest =>
    (between old place c.oldStart).flatMap (marked [' ']) ++
      (between old c.oldStart c.oldStop).flatMap (marked ['-']) ++
      (between new c.newStart c.newStop).flatMap (marked ['+']) ++
      unifiedLines old new stop c.oldStop rest

def unified (context : Nat) (old new : List Chars) (group : List Change) : Chars :=
  match group.head?, group.getLast? with
  | some first, some last =>
    let start := first.oldStart - context
    let stop := min old.length (last.oldStop + context)
    let newStart := first.newStart - (first.oldStart - start)
    let newStop := last.newStop + (stop - last.oldStop)
    str "@@ -" ++ span start stop ++ str " +" ++ span newStart newStop ++ str " @@\n" ++
      unifiedLines old new stop start group
  | _, _ => []

/-- What of a line counts: letters may be folded, and blanks left out or taken for one. -/
def essence (given : List Given) (line : Chars) : Chars :=
  let line := if Given.has given 'i' then line.map Char.toLower else line
  if Given.has given 'w' then line.filter fun c => !Chars.isSpace c
  else if Given.has given 'b' then [' '].intercalate (Chars.words line)
  else line

def lines (p : Process) (given : List Given) (first second : Chars × Chars) : Act Unit := do
  let has (c : Char) : Bool := Given.has given c
  let old := Chars.pieces '\n' first.2
  let new := Chars.pieces '\n' second.2
  let same (a b : Chars) : Bool := essence given a == essence given b
  let found := changes same old new
  let context? := if has 'U' then (Given.last? given 'U').bind Chars.toNat?
    else if has 'u' then some 3 else none
  if found.isEmpty then
    if has 's' then
      p.print (str "Files " ++ first.1 ++ str " and " ++ second.1 ++ str " are identical\n")
  else if has 'q' then
    p.print (str "Files " ++ first.1 ++ str " and " ++ second.1 ++ str " differ\n")
    Process.done 1
  else
    match context? with
    | none => p.print (found.flatMap fun c => c.plain old new)
    | some context =>
      let time := str "\t1970-01-01 00:00:00.000000000 +0000\n"
      p.print (str "--- " ++ first.1 ++ time ++ str "+++ " ++ second.1 ++ time ++
        (groups context found).flatMap (unified context old new))
    Process.done 1

end ProductLine.Shell.Compare

namespace ProductLine.Shell.Tool

def cmp : Tool := fun p => do
  let (given, names) ← Compare.optionsOf p <| .ofLetters "bls" "ni"
    [("print-bytes", 'b', .nothing), ("verbose", 'l', .nothing), ("quiet", 's', .nothing),
      ("silent", 's', .nothing), ("bytes", 'n', .argument),
      ("ignore-initial", 'i', .argument)] 2
  let size (letter : Char) : Option Nat := (Given.last? given letter).bind sizeArgument?
  match names with
  | [] => Compare.failWithHint p (str "missing operand after '" ++ p.name ++ ['\''])
  | first :: rest =>
    let second := rest.headD ['-']
    let read (name : Chars) : Act (Chars × Chars) := do
      let text ← Compare.readOne { p with
        streams := if Given.has given 's' then p.streams.filter (·.1 ≠ 2) else p.streams } name
      let text := text.drop ((size 'i').getD 0)
      return (name, (size 'n').elim text text.take)
    let one ← read first
    let two ← read second
    p.awaitInputs [first, second]
    Compare.bytes p given one two

def diff : Tool := fun p => do
  let (given, names) ← Compare.optionsOf p <| .ofLetters "uqsiwbarN" "U"
    [("brief", 'q', .nothing), ("report-identical-files", 's', .nothing),
      ("ignore-case", 'i', .nothing), ("ignore-all-space", 'w', .nothing),
      ("ignore-space-change", 'b', .nothing), ("unified", 'u', .nothing), ("text", 'a', .nothing),
      ("recursive", 'r', .nothing), ("new-file", 'N', .nothing), ("normal", 'n', .nothing)] 2
  match names with
  | [] => Compare.failWithHint p (str "missing operand after '" ++ p.name ++ ['\''])
  | [name] => Compare.failWithHint p (str "missing operand after '" ++ name ++ ['\''])
  | _ :: _ :: extra :: _ => Compare.failWithHint p (str "extra operand '" ++ extra ++ ['\''])
  | [first, second] =>
    let isDirectory (name : Chars) : Act Bool := do
      match ← p.node name with
      | .ok (_, .directory) => return true
      | _ => return false
    let inside (directory name : Chars) : Chars :=
      directory ++ '/' :: (name.reverse.takeWhile (· != '/')).reverse
    let firstIs ← isDirectory first
    let secondIs ← isDirectory second
    let one := if firstIs && !secondIs then inside first second else first
    let two := if secondIs && !firstIs then inside second first else second
    let a ← p.readInput one
    let b ← p.readInput two
    match a, b with
    | .ok a, .ok b =>
      p.awaitInputs [one, two]
      Compare.lines p given (one, a) (two, b)
    | a, b =>
      for (name, text) in [(one, a), (two, b)] do
        match text with
        | .error fault => p.warn (Process.faultOf name fault)
        | .ok _ => pure ()
      Process.done 2

end ProductLine.Shell.Tool
