/- # Tools on fields — counting, cutting and pasting columns -/
import ProductLine.Shell.Tool.Basic

namespace ProductLine.Shell.Tool

/-! ## Counting -/

/-- What `wc` counts in a text. -/
structure Counts where
  lines : Nat := 0
  words : Nat := 0
  bytes : Nat := 0
  longest : Nat := 0

def Counts.ofText (text : Chars) : Counts where
  lines := text.count '\n'
  words := (Chars.words text).length
  bytes := text.length
  longest := (text.splitOn '\n').foldl (fun n line => max n line.length) 0

def Counts.add (a b : Counts) : Counts where
  lines := a.lines + b.lines
  words := a.words + b.words
  bytes := a.bytes + b.bytes
  longest := max a.longest b.longest

def Counts.shown (letters : Chars) (c : Counts) : List Nat :=
  (if letters.contains 'l' then [c.lines] else []) ++
  (if letters.contains 'w' then [c.words] else []) ++
  (if letters.contains 'm' then [c.bytes] else []) ++
  (if letters.contains 'c' then [c.bytes] else []) ++
  (if letters.contains 'L' then [c.longest] else [])

def Counts.row (letters : Chars) (width : Nat) (c : Counts) (name : Option Chars) : Chars :=
  let numbers := (c.shown letters).map fun n => Chars.padLeft width (Chars.ofNat n)
  [' '].intercalate (numbers ++ name.toList) ++ ['\n']

def fileSize? (p : Process) (name : Chars) : Act (Option Nat) := do
  if name == ['-'] then
    match p.stream? 0 with
    | none => return none
    | some number =>
      match ← Machine.opening? number with
      | some { target := .file number, .. } => return some ((← get).files.size number)
      | _ => return none
  else
    match ← p.node name with
    | .ok (_, .file number) => return some ((← get).files.size number)
    | _ => return none

def countsWidth (p : Process) (names : List Chars) : Act Nat := do
  let mut total := 0
  let mut least := 1
  for name in names do
    match ← fileSize? p name with
    | some size => total := total + size
    | none =>
      match ← p.node name with
      | .error _ => if name == ['-'] then least := 7
      | .ok _ => least := 7
  return max least (Chars.ofNat total).length

/-- The counts of an input.  The size of a file is known without reading it. -/
def countsOf (p : Process) (letters name : Chars) : Act (Except FileFault Counts) := do
  let size? ← if name != ['-'] && letters.all (· == 'c') then fileSize? p name else pure none
  match size? with
  | some size => return .ok { bytes := size }
  | none =>
    match ← p.readInput name with
    | .error fault => return .error fault
    | .ok text =>
      if name == ['-'] then p.awaitEnd 0
      return .ok (Counts.ofText text)

def wc : Tool := fun p => do
  let (given, names) ← p.options <| .ofLetters "clLmw" ""
    [("bytes", 'c', .nothing), ("chars", 'm', .nothing), ("lines", 'l', .nothing),
      ("words", 'w', .nothing), ("max-line-length", 'L', .nothing)] 1
  let letters := if given.isEmpty then "lwc".toList else given.map Prod.fst
  let inputs := Process.inputNames names
  let isSingle := inputs.length == 1 && (({} : Counts).shown letters).length == 1
  let width ← if isSingle then pure 1 else countsWidth p inputs
  let mut status := 0
  let mut total : Counts := {}
  let mut out : Chars := []
  for name in inputs do
    let shownName := if names.isEmpty then none else some name
    match ← countsOf p letters name with
    | .ok counts =>
      total := total.add counts
      out := out ++ counts.row letters width shownName
    | .error fault =>
      p.warn (Process.faultOf name fault)
      status := 1
      if fault == .isADirectory then out := out ++ ({} : Counts).row letters width shownName
  if 1 < inputs.length then out := out ++ total.row letters width (some (str "total"))
  p.print out
  Process.done status

/-! ## Ranges -/

/-- A range of positions, of which the last one may be open. -/
abbrev Range := Nat × Option Nat

/-- Why a list of ranges is wrong. -/
inductive RangeFault where
  | zero
  | decreasing
  | empty
  | invalid (text : Chars)

def range (text : Chars) : Except RangeFault Range :=
  let first := text.takeWhile (· != '-')
  let number (digits : Chars) : Except RangeFault Nat :=
    match Chars.toNat? digits with
    | some 0 => .error .zero
    | some n => .ok n
    | none => .error (.invalid text)
  if first.length == text.length then
    if text.isEmpty then .error .zero else (number text).map fun n => (n, some n)
  else
    let last := text.drop (first.length + 1)
    if first.isEmpty && last.isEmpty then .error .empty
    else do
      let a ← if first.isEmpty then .ok 1 else number first
      if last.isEmpty then return (a, none)
      else
        let b ← number last
        if b < a then throw .decreasing else return (a, some b)

def mergeRanges (ranges : List Range) : List Range :=
  let sorted := ranges.mergeSort fun a b => a.1 ≤ b.1
  let add (sofar : List Range) (r : Range) : List Range :=
    match sofar with
    | (a, none) :: rest => (a, none) :: rest
    | (a, some b) :: rest =>
      if r.1 ≤ b then (a, r.2.map (max b)) :: rest else r :: (a, some b) :: rest
    | [] => [r]
  (sorted.foldl add []).reverse

def complement (ranges : List Range) : List Range :=
  let add (state : List Range × Option Nat) (r : Range) : List Range × Option Nat :=
    match state.2 with
    | none => state
    | some next =>
      (if next < r.1 then (next, some (r.1 - 1)) :: state.1 else state.1,
        r.2.map fun last => max next (last + 1))
  let (found, next) := (mergeRanges ranges).foldl add ([], some 1)
  (match next with
    | some n => (n, none) :: found
    | none => found).reverse

def inRange {α : Type} (items : List α) (r : Range) : List α :=
  let from' := items.drop (r.1 - 1)
  match r.2 with
  | some last => from'.take (last + 1 - r.1)
  | none => from'

structure Cut where
  ranges : List Range
  delimiter : Char := '\t'
  joiner : Option Chars := none
  byFields : Bool := false
  onlyDelimited : Bool := false

def Cut.line (c : Cut) (line : Chars) : Option Chars :=
  if c.byFields then
    let fields := line.splitOn c.delimiter
    if fields.length ≤ 1 then (if c.onlyDelimited then none else some line)
    else
      some ((c.joiner.getD [c.delimiter]).intercalate (c.ranges.flatMap (inRange fields)))
  else
    let parts := (c.ranges.map (inRange line)).filter (!·.isEmpty)
    some ((c.joiner.getD []).intercalate parts)

def RangeFault.message (byFields : Bool) : RangeFault → Chars
  | .zero => str (if byFields then "fields are numbered from 1"
      else "byte/character positions are numbered from 1")
  | .decreasing => str "invalid decreasing range"
  | .empty => str "invalid range with no endpoint: -"
  | .invalid text =>
    str (if byFields then "invalid field value " else "invalid byte/character position ") ++
      Chars.quoted (text.dropWhile Char.isDigit)

def cut : Tool := fun p => do
  let (given, names) ← p.options <| .ofLetters "nsz" "bcfd"
    [("bytes", 'b', .argument), ("characters", 'c', .argument), ("fields", 'f', .argument),
      ("delimiter", 'd', .argument), ("only-delimited", 's', .nothing),
      ("output-delimiter", 'O', .argument), ("complement", 'C', .nothing),
      ("zero-terminated", 'z', .nothing)] 1
  let lists := given.filter fun g => "bcf".toList.contains g.1
  match lists with
  | [] => p.failWithHint 1 (str "you must specify a list of bytes, characters, or fields")
  | (letter, list) :: others =>
    let byFields := letter == 'f'
    if !others.isEmpty then p.failWithHint 1 (str "only one list may be specified")
    let delimiter := Given.last? given 'd'
    if delimiter.any fun d => 1 < d.length then
      p.failWithHint 1 (str "the delimiter must be a single character")
    if !byFields && delimiter.isSome then
      p.failWithHint 1
        (str "an input delimiter may be specified only when operating on fields")
    if !byFields && Given.has given 's' then
      p.failWithHint 1
        (str "suppressing non-delimited lines makes sense\n\tonly when operating on fields")
    let words := (list.getD []).splitOnP fun c => c == ',' || c == ' '
    match words.mapM range with
    | .error fault => p.failWithHint 1 (fault.message byFields)
    | .ok ranges =>
      let ranges := if Given.has given 'C' then complement ranges else mergeRanges ranges
      let cut : Cut :=
        { ranges := ranges, byFields := byFields, joiner := Given.last? given 'O'
          delimiter := match delimiter with
            | some (d :: _) => d
            | some [] => '\x00'
            | none => '\t'
          onlyDelimited := Given.has given 's' }
      let mark := if Given.has given 'z' then '\x00' else '\n'
      let lines (text : Chars) : List Chars :=
        (Chars.pieces mark text).map fun piece =>
          if piece.getLast? == some mark then piece.dropLast else piece
      p.filterEach names fun text => (lines text).flatMap fun line =>
        match cut.line line with
        | some shown => shown ++ [mark]
        | none => []

/-! ## Pasting -/

/-- The delimiters that a text spells, each of which may be empty. -/
def delimiters : Chars → List Chars
  | '\\' :: c :: rest =>
    (match c with
      | 'n' => ['\n']
      | 't' => ['\t']
      | '0' => []
      | c => [c]) :: delimiters rest
  | c :: rest => [c] :: delimiters rest
  | [] => []

/-- Texts joined by delimiters that are used in turn; `present` are those still to be used. -/
def joinInTurn (all : List Chars) : List Chars → (present : List Chars) → Chars
  | [], _ => []
  | [text], _ => text
  | text :: rest, d :: ds => text ++ d ++ joinInTurn all rest ds
  | text :: rest, [] => text ++ all.headD [] ++ joinInTurn all rest (all.drop 1)

/-- The rows of columns, until all of them are used up.  `fuel` bounds the rows. -/
def rows : (fuel : Nat) → List (List Chars) → List (List Chars)
  | 0, _ => []
  | fuel + 1, columns =>
    if columns.all List.isEmpty then []
    else columns.map (·.headD []) :: rows fuel (columns.map (·.drop 1))

/-- The lines of every second, third, … of the shares that the standard input has among columns. -/
def shareLines (lines : List Chars) (index count : Nat) : List Chars :=
  (lines.zipIdx.filter fun (_, i) => i % count == index).map Prod.fst

def paste : Tool := fun p => do
  let (given, names) ← p.options <| .ofLetters "sz" "d"
    [("delimiters", 'd', .argument), ("serial", 's', .nothing),
      ("zero-terminated", 'z', .nothing)] 1
  let marks := match delimiters ((Given.last? given 'd').getD ['\t']) with
    | [] => [[]]
    | marks => marks
  let names := Process.inputNames names
  let complaint (name : Chars) (fault : FileFault) : Chars := Process.faultOf name fault
  let standard := (names.filter (· == ['-'])).length
  let isSerial := Given.has given 's'
  let (inputs, ok) ← p.readInputs complaint names
  if !ok && !isSerial then throw (.exited 1)
  let shared := Chars.lines ((inputs.find? (·.1 == ['-'])).map Prod.snd |>.getD [])
  if isSerial then
    p.print (inputs.flatMap fun input =>
      joinInTurn marks (Chars.lines input.2) marks ++ ['\n'])
  else
    let place (i : Nat) : Nat := ((names.take i).filter (· == ['-'])).length
    let columns := inputs.zipIdx.map fun (input, i) =>
      if input.1 == ['-'] then shareLines shared (place i) standard else Chars.lines input.2
    let most := columns.foldl (fun n column => max n column.length) 0
    p.print ((rows (most + 1) columns).flatMap fun row => joinInTurn marks row marks ++ ['\n'])
  p.awaitInputs names
  Process.done (if ok then 0 else 1)

/-! ## Joining -/

def fieldsOf (delimiter : Option Char) (line : Chars) : List Chars :=
  match delimiter with
  | some d => line.splitOn d
  | none => (line.splitOnP fun c => c == ' ' || c == '\t').filter (!·.isEmpty)

structure Join where
  first : Nat := 1
  second : Nat := 1
  delimiter : Option Char := none
  unpaired : List Nat := []
  onlyUnpaired : Bool := false
  filler : Chars := []
  format : Option (List (Nat × Nat)) := none
  foldsCase : Bool := false

namespace Join

def key (j : Join) (second : Bool) (fields : List Chars) : Chars :=
  let text := fields.getD ((if second then j.second else j.first) - 1) []
  if j.foldsCase then text.map Char.toLower else text

/-- What is printed of a pair of lines, one of which may be missing. -/
def row (j : Join) (a b : Option (List Chars)) : Chars :=
  let joiner := [j.delimiter.getD ' ']
  let without (n : Nat) (fields : List Chars) : List Chars :=
    fields.take (n - 1) ++ fields.drop n
  let keyText := match a, b with
    | some fields, _ => fields.getD (j.first - 1) []
    | none, some fields => fields.getD (j.second - 1) []
    | none, none => []
  let fields := match j.format with
    | none => keyText :: without j.first (a.getD []) ++ without j.second (b.getD [])
    | some places => places.map fun (input, n) =>
        let text := if input = 0 then keyText
          else ((if input = 1 then a else b).getD []).getD (n - 1) []
        orElse text j.filler
  joiner.intercalate fields ++ ['\n']

def group (j : Join) (second : Bool) (lines : List (List Chars)) : List (List Chars) :=
  match lines with
  | [] => []
  | line :: _ => lines.takeWhile fun other => j.key second other == j.key second line

/-- Joins lines that are sorted by their keys.  `fuel` bounds the lines. -/
def merge (j : Join) : (fuel : Nat) → List (List Chars) → List (List Chars) → Chars
  | 0, _, _ => []
  | _, [], [] => []
  | fuel + 1, as, bs =>
    let lone (input : Nat) (a b : Option (List Chars)) : Chars :=
      if j.unpaired.contains input then j.row a b else []
    match as, bs with
    | a :: as', [] => lone 1 (some a) none ++ merge j fuel as' []
    | [], b :: bs' => lone 2 none (some b) ++ merge j fuel [] bs'
    | a :: as', b :: bs' =>
      match Chars.compare (j.key false a) (j.key true b) with
      | .lt => lone 1 (some a) none ++ merge j fuel as' (b :: bs')
      | .gt => lone 2 none (some b) ++ merge j fuel (a :: as') bs'
      | .eq =>
        let left := j.group false (a :: as')
        let right := j.group true (b :: bs')
        let pairs := if j.onlyUnpaired then [] else
          left.flatMap fun x => right.flatMap fun y => j.row (some x) (some y)
        pairs ++ merge j fuel ((a :: as').drop left.length) ((b :: bs').drop right.length)
    | [], [] => []

end Join

def join : Tool := fun p => do
  let (given, names) ← p.options <| .ofLetters "i" "12jtavoe" [("ignore-case", 'i', .nothing)] 1
  match names with
  | [left, right] =>
    let number (letter : Char) : Option Nat := (Given.last? given letter).bind Chars.toNat?
    let both := number 'j'
    let place (text : Chars) : Nat × Nat :=
      match text.splitOn '.' with
      | [a, b] => (Chars.digitsValue a, Chars.digitsValue b)
      | _ => (0, 0)
    let j : Join :=
      { first := (number '1').getD (both.getD 1), second := (number '2').getD (both.getD 1)
        delimiter := (Given.last? given 't').bind List.head?
        unpaired := (Given.all given 'a' ++ Given.all given 'v').filterMap Chars.toNat?
        onlyUnpaired := Given.has given 'v', filler := (Given.last? given 'e').getD []
        format := (Given.last? given 'o').map fun text =>
          (text.splitOnP fun c => c == ',' || c == ' ').map place
        foldsCase := Given.has given 'i' }
    let (inputs, ok) ← p.readInputs Process.faultOf [left, right]
    if !ok then throw (.exited 1)
    let lines (i : Nat) : List (List Chars) :=
      (Chars.lines ((inputs[i]?).map Prod.snd |>.getD [])).map (fieldsOf j.delimiter)
    p.awaitInputs names
    p.print (j.merge ((lines 0).length + (lines 1).length + 1) (lines 0) (lines 1))
  | [] => p.failWithHint 1 (str "missing operand")
  | [name] => p.failWithHint 1 (str "missing operand after " ++ Chars.quoted name)
  | _ :: _ :: name :: _ => p.failWithHint 1 (str "extra operand " ++ Chars.quoted name)

end ProductLine.Shell.Tool
