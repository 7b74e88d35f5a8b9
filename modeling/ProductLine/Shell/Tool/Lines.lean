/- # Tools that pass lines on — all of them, some of them, or in another form

Their inputs are files and the standard input; what they print keeps the
lines, as far as they are printed, together.
-/
import ProductLine.Shell.Tool.Basic

namespace ProductLine.Shell.Tool

/-! ## Whole inputs -/

/-- How `cat` shows lines. -/
structure CatStyle where
  numbers : Bool := false
  numbersFilled : Bool := false
  squeezes : Bool := false
  marksEnds : Bool := false
  marksTabs : Bool := false
  marksOthers : Bool := false
deriving DecidableEq

def numberingSteps : Nat := 8

/-- A character in a form that is visible; tabs and line feeds are left as they are. -/
def visible (c : Char) : Chars :=
  let low (n : Nat) : Chars :=
    if n < 32 then ['^', Char.ofNat (n + 64)] else if n = 127 then ['^', '?'] else [Char.ofNat n]
  if c == '\t' || c == '\n' then [c]
  else if c.toNat < 128 then low c.toNat
  else str "M-" ++ low (c.toNat - 128)

def CatStyle.line (style : CatStyle) (line : Chars) : Chars :=
  let ended := line.getLast? == some '\n'
  let body := if ended then line.dropLast else line
  let shown := body.flatMap fun c =>
    if c == '\t' then (if style.marksTabs then ['^', 'I'] else [c])
    else if style.marksOthers then visible c
    else [c]
  if ended then shown ++ (if style.marksEnds then ['$', '\n'] else ['\n']) else shown

/-- Lines as `cat` shows them, the next one with that number; `wasEmpty` says that the line before
was empty. -/
def CatStyle.lines (style : CatStyle) : List Chars → (number : Nat) → (wasEmpty : Bool) →
    Chars × Nat × Bool
  | [], number, wasEmpty => ([], number, wasEmpty)
  | line :: rest, number, wasEmpty =>
    let isEmpty := line == ['\n']
    if style.squeezes && isEmpty && wasEmpty then style.lines rest number true
    else
      let counts := style.numbers && !(style.numbersFilled && isEmpty)
      let front := if counts then Chars.padLeft 6 (Chars.ofNat number) ++ ['\t'] else []
      let (more, last) := style.lines rest (if counts then number + 1 else number) isEmpty
      (front ++ style.line line ++ more, last)

def catInputs (p : Process) (style : CatStyle) :
    List Chars → (number : Nat) → (wasEmpty : Bool) → (status : Nat) → Act Nat
  | [], _, _, status => return status
  | name :: rest, number, wasEmpty, status => do
    match ← p.readInput name with
    | .error fault =>
      p.warn (Process.faultOf name fault)
      catInputs p style rest number wasEmpty 1
    | .ok text =>
      let (shown, number, wasEmpty) ← if style = {} then pure (text, number, wasEmpty) else
        Machine.spend (numberingSteps * text.count '\n')
        pure (style.lines (Chars.pieces '\n' text) number wasEmpty)
      p.print shown
      catInputs p style rest number wasEmpty status

def cat : Tool := fun p => do
  let (given, names) ← p.options <| .ofLetters "nbsAEeTtvu" ""
    [("number", 'n', .nothing), ("number-nonblank", 'b', .nothing),
      ("squeeze-blank", 's', .nothing), ("show-all", 'A', .nothing), ("show-ends", 'E', .nothing),
      ("show-tabs", 'T', .nothing), ("show-nonprinting", 'v', .nothing)] 1
  let has (letters : String) : Bool := letters.toList.any fun c => Given.has given c
  let style : CatStyle :=
    { numbers := has "nb", numbersFilled := has "b", squeezes := has "s", marksEnds := has "AEe"
      marksTabs := has "ATt", marksOthers := has "Aetv" }
  let names := Process.inputNames names
  let status ← catInputs p style names 1 false 0
  p.awaitInputs names
  Process.done status

def tac : Tool := fun p => do
  let (_, names) ← p.options <| .ofLetters "br" "s" [] 1
  let complaint (name : Chars) (fault : FileFault) : Chars :=
    if fault == .isADirectory then name ++ str ": read error: Is a directory"
    else str "failed to open " ++ Chars.quoted name ++ str " for reading: " ++ Process.reason fault
  let names := Process.inputNames names
  let (inputs, ok) ← p.readInputs complaint names
  p.awaitInputs names
  p.print (inputs.flatMap fun input => (Chars.pieces '\n' input.2).reverse.flatten)
  Process.done (if ok then 0 else 1)

def rev : Tool := fun p => do
  let (_, names) ← p.options <| .ofLetters "" "" [] 1
  let turn (line : Chars) : Chars :=
    if line.getLast? == some '\n' then line.dropLast.reverse ++ ['\n'] else line.reverse
  p.filterEach names fun text => (Chars.pieces '\n' text).flatMap turn

def tee : Tool := fun p => do
  let (given, names) ← p.options <| .ofLetters "aip" ""
    [("append", 'a', .nothing), ("ignore-interrupts", 'i', .nothing)] 1
  let mode : OpenMode := if Given.has given 'a' then .append else .write
  let mut status := 0
  let mut openings : List (Chars × Nat) := []
  for name in names do
    match ← p.openPath name mode with
    | .ok opening => openings := openings ++ [(name, opening)]
    | .error fault =>
      p.warn (Process.faultOf name fault)
      status := 1
  match ← p.readInput ['-'] with
  | .error fault => p.fail 1 (str "read error: " ++ Process.reason fault)
  | .ok text =>
    let written ← if text.isEmpty then pure (.ok ()) else p.write 1 text
    match written with
    | .ok () => pure ()
    | .error fault =>
      p.warn (str "'standard output': " ++ Process.reason fault)
      status := 1
    for (name, opening) in openings do
      match ← Machine.write opening text with
      | .ok () => pure ()
      | .error fault =>
        p.warn (Process.faultOf name fault)
        status := 1
    p.awaitEnd 0
    Process.done status

/-! ## The beginning and the end -/

/-- How much of an input is wanted: so many lines or bytes, counted from the other end if the amount
is inverted. -/
structure Amount where
  bytes : Bool := false
  count : Nat := 10
  inverted : Bool := false

/-- The first of the units of a text, as many as are wanted. -/
def Amount.first {α : Type} (a : Amount) (units : List α) : List α :=
  if a.inverted then units.take (units.length - a.count) else units.take a.count

/-- The last of the units of a text, as many as are wanted; an inverted amount is the number of the
first one. -/
def Amount.last {α : Type} (a : Amount) (units : List α) : List α :=
  if a.inverted then units.drop (a.count - 1) else units.drop (units.length - a.count)

def Amount.front (a : Amount) (mark : Char) (text : Chars) : Chars :=
  if a.bytes then a.first text else (a.first (Chars.pieces mark text)).flatten

def Amount.back (a : Amount) (mark : Char) (text : Chars) : Chars :=
  if a.bytes then a.last text else (a.last (Chars.pieces mark text)).flatten

/-- The amount that an argument spells; `sign` is the one that inverts it. -/
def readAmount (p : Process) (bytes : Bool) (sign : Char) (text : Chars) : Act Amount := do
  let digits := text.dropWhile fun c => c == '-' || c == '+'
  match sizeArgument? digits with
  | some count => return { bytes := bytes, count := count, inverted := text.head? == some sign }
  | none =>
    p.fail 1 (str (if bytes then "invalid number of bytes: " else "invalid number of lines: ") ++
      Chars.quoted text)

def headlineName (name : Chars) : Chars :=
  if name == ['-'] then str "standard input" else name

def oldAmount (signs : String) : List Chars → Option Chars × List Chars
  | [] => (none, [])
  | word :: rest =>
    match word with
    | sign :: d :: more =>
      let digits := (d :: more).takeWhile Char.isDigit
      if signs.toList.contains sign && !digits.isEmpty then
        let letters := (d :: more).drop digits.length
        (some ((if sign == '+' then ['+'] else []) ++ digits),
          if letters.isEmpty then rest else ('-' :: letters) :: rest)
      else (none, word :: rest)
    | _ => (none, word :: rest)

def amountOptions : OptionTable :=
  .ofLetters "qvzfFr" "nc"
    [("lines", 'n', .argument), ("bytes", 'c', .argument), ("quiet", 'q', .nothing),
      ("silent", 'q', .nothing), ("verbose", 'v', .nothing), ("zero-terminated", 'z', .nothing),
      ("follow", 'f', .optional)] 1

def givenAmount (p : Process) (given : List Given) (old : Option Chars) (sign : Char) :
    Act Amount := do
  match given.reverse.find? fun g => g.1 == 'n' || g.1 == 'c' with
  | some (letter, some text) => readAmount p (letter == 'c') sign text
  | _ =>
    match old with
    | some text => readAmount p false sign text
    | none => return {}

/-- Takes back what was read too much from an input that can be positioned. -/
def giveBack (p : Process) (count : Nat) : Act Unit := do
  match p.stream? 0 with
  | none => return
  | some number =>
    match ← Machine.opening? number with
    | some opening =>
      match opening.target with
      | .file _ =>
        Machine.setOpening number { opening with position := opening.position - count }
      | _ => return
    | none => return

/-- Reads the standard input as far as the beginning of it needs. -/
def Amount.readFrontOf (a : Amount) (mark : Char) (p : Process) : Act (Except FileFault Chars) := do
  if a.bytes && !a.inverted then p.readCount 0 a.count
  else
    match ← p.readInput ['-'] with
    | .error fault => return .error fault
    | .ok text =>
      if a.inverted || text.count mark < a.count then p.awaitEnd 0
      return .ok text

/-- Reads an input as far as the beginning of it needs. -/
def Amount.readFront (a : Amount) (mark : Char) (p : Process) (name : Chars) :
    Act (Except FileFault Chars) := do
  if name == ['-'] then a.readFrontOf mark p
  else
    match ← p.openPath name .read with
    | .error fault => return .error fault
    | .ok opening => a.readFrontOf mark (p.withStream 0 opening)

def printParts (p : Process) (read : Chars → Act (Except FileFault Chars)) (part : Chars → Chars)
    (headlines givesBack : Bool) :
    List Chars → (isFirst : Bool) → (status : Nat) → Act Nat
  | [], _, status => return status
  | name :: rest, isFirst, status => do
    match ← read name with
    | .error .isADirectory =>
      if headlines then
        p.print ((if isFirst then [] else ['\n']) ++ str "==> " ++ name ++ str " <==\n")
      p.warn (str "error reading " ++ Chars.quoted name ++ str ": Is a directory")
      printParts p read part headlines givesBack rest false 1
    | .error fault =>
      p.warn (str "cannot open " ++ Chars.quoted name ++ str " for reading: " ++
        Process.reason fault)
      printParts p read part headlines givesBack rest isFirst 1
    | .ok text =>
      let shown := part text
      if givesBack && name == ['-'] then giveBack p (text.length - shown.length)
      if headlines then
        p.print ((if isFirst then [] else ['\n']) ++ str "==> " ++ headlineName name ++
          str " <==\n")
      p.print shown
      printParts p read part headlines givesBack rest false status

def wantsHeadlines (given : List Given) (names : List Chars) : Bool :=
  match Given.lastOf? given "qv" with
  | some 'v' => true
  | some _ => false
  | none => 1 < names.length

def head : Tool := fun p => do
  let (old, words) := oldAmount "-" p.arguments
  let (given, names) ← { p with words := p.name :: words }.options amountOptions
  let amount ← givenAmount p given old '-'
  let mark := if Given.has given 'z' then '\x00' else '\n'
  let names := Process.inputNames names
  let status ← printParts p (amount.readFront mark p) (amount.front mark)
    (wantsHeadlines given names) (!amount.inverted) names true 0
  Process.done status

def tail : Tool := fun p => do
  let (old, words) := oldAmount "-+" p.arguments
  let (given, names) ← { p with words := p.name :: words }.options amountOptions
  let amount ← givenAmount p given old '+'
  let mark := if Given.has given 'z' then '\x00' else '\n'
  let names := Process.inputNames names
  if !amount.inverted then p.awaitInputs names
  let status ← printParts p p.readInput (amount.back mark) (wantsHeadlines given names) false
    names true 0
  p.awaitInputs names
  if (Given.has given 'f' || Given.has given 'F') && names != [['-']] then throw (.endless true)
  Process.done status

/-! ## Lines in another form -/

def nl : Tool := fun p => do
  let (given, names) ← p.options <| .ofLetters "p" "bdfhilnsvw"
    [("body-numbering", 'b', .argument), ("number-width", 'w', .argument),
      ("number-separator", 's', .argument), ("starting-line-number", 'v', .argument),
      ("line-increment", 'i', .argument), ("number-format", 'n', .argument)] 1
  let size (letter : Char) (default : Nat) : Nat :=
    ((Given.last? given letter).bind Chars.toNat?).getD default
  let width := size 'w' 6
  let step := size 'i' 1
  let separator := (Given.last? given 's').getD ['\t']
  let all := Given.last? given 'b' == some ['a']
  let never := Given.last? given 'b' == some ['n']
  let form (n : Nat) : Chars :=
    match Given.last? given 'n' with
    | some ['l', 'n'] => Chars.padRight width (Chars.ofNat n)
    | some ['r', 'z'] => List.replicate (width - (Chars.ofNat n).length) '0' ++ Chars.ofNat n
    | _ => Chars.padLeft width (Chars.ofNat n)
  let blank := List.replicate (width + separator.length) ' '
  let add (state : List Chars × Nat) (line : Chars) : List Chars × Nat :=
    if !never && (all || !line.isEmpty) then
      ((form state.2 ++ separator ++ line ++ ['\n']) :: state.1, state.2 + step)
    else ((blank ++ line ++ ['\n']) :: state.1, state.2)
  let number (text : Chars) : Act Chars := do
    Machine.spend (numberingSteps * text.count '\n')
    return ((Chars.lines text).foldl add ([], size 'v' 1)).1.reverse.flatten
  p.filter names number

def columnAfter (countsBytes : Bool) (column : Nat) (c : Char) : Nat :=
  if countsBytes then column + 1
  else if c == '\t' then (column / 8 + 1) * 8
  else if c == '\x08' then column - 1
  else if c == '\x0d' then 0
  else column + 1

/-- A line in pieces no wider than `width`; `atBlanks` says that it is cut behind a blank if there
is one.  `fuel` bounds the pieces. -/
def folded (width : Nat) (atBlanks countsBytes : Bool) : (fuel : Nat) → Chars → Chars
  | 0, line => line
  | fuel + 1, line =>
    let fits (state : Nat × Nat × Bool) (c : Char) : Nat × Nat × Bool :=
      let (count, column, open') := state
      let column := columnAfter countsBytes column c
      if open' && column ≤ width then (count + 1, column, true) else (count, column, false)
    let (count, _, whole) := line.foldl fits (0, 0, true)
    if whole then line
    else
      let count := max count 1
      let front := line.take count
      let blanks := front.reverse.dropWhile fun c => c != ' ' && c != '\t'
      let cut := if atBlanks && !blanks.isEmpty then blanks.length else count
      line.take cut ++ '\n' :: folded width atBlanks countsBytes fuel (line.drop cut)

def fold : Tool := fun p => do
  let (old, words) := oldAmount "-" p.arguments
  let (given, names) ← { p with words := p.name :: words }.options <| .ofLetters "bs" "w"
    [("width", 'w', .argument), ("bytes", 'b', .nothing), ("spaces", 's', .nothing)] 1
  let text := ((Given.last? given 'w').or old).getD (str "80")
  match Chars.toNat? text with
  | none | some 0 => p.fail 1 (str "invalid number of columns: " ++ Chars.quoted text)
  | some width =>
    let line (line : Chars) : Chars :=
      let ended := line.getLast? == some '\n'
      let body := if ended then line.dropLast else line
      folded width (Given.has given 's') (Given.has given 'b') (body.length + 1) body ++
        (if ended then ['\n'] else [])
    p.filterEach names fun text => (Chars.pieces '\n' text).flatMap line

def expandTabs (every : Nat) (text : Chars) : Chars :=
  let add (state : Chars × Nat) (c : Char) : Chars × Nat :=
    let (out, column) := state
    if c == '\t' then
      let next := (column / every + 1) * every
      (List.replicate (next - column) ' ' ++ out, next)
    else if c == '\n' then (c :: out, 0)
    else (c :: out, column + 1)
  (text.foldl add ([], 0)).1.reverse

def expand : Tool := fun p => do
  let (given, names) ← p.options <| .ofLetters "i" "t" [("tabs", 't', .argument)] 1
  let every := max 1 (((Given.last? given 't').bind Chars.toNat?).getD 8)
  p.filterEach names (expandTabs every)

def unexpandLine (every : Nat) (line : Chars) : Chars :=
  let front := line.takeWhile fun c => c == ' ' || c == '\t'
  let width := (expandTabs every front).length
  List.replicate (width / every) '\t' ++ List.replicate (width % every) ' ' ++
    line.drop front.length

def unexpand : Tool := fun p => do
  let (given, names) ← p.options <| .ofLetters "a" "t" [("tabs", 't', .argument)] 1
  let every := max 1 (((Given.last? given 't').bind Chars.toNat?).getD 8)
  p.filterEach names fun text => (Chars.pieces '\n' text).flatMap (unexpandLine every)

def yes : Tool := fun p => do
  let words := if p.arguments.isEmpty then [['y']] else p.arguments
  let line := [' '].intercalate words ++ ['\n']
  let block := (List.replicate (65536 / line.length + 1) line).flatten
  for _ in List.range ((← get).room / leastRoom + 1) do p.print block
  throw (.endless true)

end ProductLine.Shell.Tool
