/- # Editing streams — the tool `sed`

A line is read into the pattern space, the commands of the script act on it,
and it is printed; then comes the next line.  The last line of an input may
lack its line feed; it is printed that way unless something follows.
-/
import ProductLine.Shell.Tool.Files
import ProductLine.Shell.Tool.Editing.Script

namespace ProductLine.Shell.Editing

/-- How a script is run. -/
structure Style where
  quiet : Bool := false
  separate : Bool := false
  inPlace : Option Chars := none
  followsLinks : Bool := false
  mark : Char := '\n'
  width : Nat := 70

/-- A range of lines: it has not begun, or lasts until a line if that is known. -/
inductive Range where
  | idle
  | active (stop : Option Nat)

/-- What is added behind a line. -/
inductive Queued where
  | text (s : Chars)
  | file (path : Chars)

/-- An editor at work.  `lines` is what is left of the present input, each line with its mark if it
has one; `owing` holds the streams whose last line lacks one; `rests` are the files that are read
line by line. -/
structure Editor where
  process : Process
  start : Program → Process → Act Unit
  script : Array Line
  style : Style
  scriptEnd : Chars := []
  space : Chars := []
  ended : Bool := true
  hold : Chars := []
  holdEnded : Bool := true
  number : Nat := 0
  replaced : Bool := false
  queue : List Queued := []
  ranges : Array Range
  regex : Option Regex := none
  lines : List Chars := []
  input : Chars := ['-']
  inputs : List Chars
  owing : List Nat := []
  rests : List (Chars × List Chars) := []
  files : List (Chars × Nat)
  edited : Option (Chars × Nat) := none
  status : Nat := 0

abbrev Edit := StateT Editor Act

/-- Where to go on: at a command, with the next line, with what is left of this one, or nowhere. -/
inductive Flow where
  | go (place : Nat)
  | done (prints : Bool)
  | again
  | quit (prints : Bool) (code : Nat)

/-! ## Output -/

/-- Writes to a stream, which gets the mark that its last line lacks. -/
def write (stream : Nat) (text : Chars) (isWhole : Bool) : Edit Unit := do
  let e ← get
  let front := if e.owing.contains stream then [e.style.mark] else []
  let others := e.owing.filter (· ≠ stream)
  set { e with owing := if isWhole then others else stream :: others }
  if stream == 1 then e.process.print (front ++ text)
  else
    let _ ← e.process.write stream (front ++ text)

def printLine (stream : Nat) (text : Chars) (ended : Bool) : Edit Unit := do
  let mark := (← get).style.mark
  write stream (if ended then text ++ [mark] else text) ended

def printSpace : Edit Unit := do
  let e ← get
  printLine 1 e.space e.ended

def flushQueue : Edit Unit := do
  let queue := (← get).queue
  modify fun e => { e with queue := [] }
  for item in queue do
    match item with
    | .text text => write 1 text true
    | .file path =>
      match ← (← get).process.readPath path with
      | .ok text => if !text.isEmpty then write 1 text true
      | .error _ => pure ()

/-! ## Input -/

/-- Puts what was printed for a file that is edited in place into a new file of its name. -/
def finishFile : Edit Unit := do
  let e ← get
  match e.edited with
  | none => return
  | some (path, pipe) =>
    let text ← Machine.drain pipe
    set { e with edited := none, owing := e.owing.filter (· ≠ 1) }
    let suffix := e.style.inPlace.getD []
    if !suffix.isEmpty then
      let backup := if suffix.contains '*' then
          suffix.flatMap fun c => if c == '*' then Tool.lastStep path else [c]
        else path ++ suffix
      match ← Process.locateBy e.style.followsLinks e.process path,
          ← Process.locateBy false e.process backup with
      | .ok place, .ok goal =>
        let kept ← Machine.changing fun files => do
          let moved ← files.move place goal
          return match files.node? place with
            | some node => moved.put place node
            | none => moved
        if let .error _ := kept then pure ()
      | _, _ => pure ()
    match ← e.process.node path, ← Process.locateBy e.style.followsLinks e.process path with
    | .ok (_, .file number), .ok place =>
      let replaced (files : FileTree) : FileTree :=
        (files.discard place).create place
          { content := Chars.appendTo .empty text, mode := files.mode number }
      modifyThe Machine fun m => { m with files := replaced m.files }
    | _, _ => return

/-- Lets what is printed go into a file that is edited in place. -/
def beginFile (path : Chars) : Edit Unit := do
  if (← get).style.inPlace.isSome then
    let pipe ← Machine.addPipe {}
    let opening ← Machine.addOpening { target := .pipe pipe, readable := false, writable := true }
    modify fun e => { e with
      edited := some (path, pipe), process := e.process.withStream 1 opening }

def openInput (path : Chars) : Edit (Option Chars) := do
  let e ← get
  match ← e.process.node path with
  | .ok (_, .directory) =>
    if e.style.inPlace.isSome then
      e.process.warn (str "couldn't edit " ++ path ++ str ": not a regular file")
    else e.process.warn (str "read error on " ++ path ++ str ": Is a directory")
    modify fun e => { e with status := 4 }
    return none
  | _ =>
    match ← e.process.readInput path with
    | .ok text => return some text
    | .error fault =>
      e.process.warn (str "can't read " ++ path ++ str ": " ++ Process.reason fault)
      modify fun e => { e with status := 2 }
      return none

/-- Goes to the next input that holds something; says whether there is one.  `fuel` bounds the
inputs. -/
def nextInput (silently : Bool) : (fuel : Nat) → Edit Bool
  | 0 => return false
  | fuel + 1 => do
    let e ← get
    match e.inputs with
    | [] => return false
    | path :: rest =>
      if silently && e.style.separate then return false
      finishFile
      set { ← get with inputs := rest }
      match ← openInput path with
      | none => nextInput silently fuel
      | some text =>
        if e.style.separate then
          modify fun e => { e with number := 0, ranges := e.ranges.map fun _ => .idle }
          beginFile path
        modify fun e => { e with lines := Chars.pieces e.style.mark text, input := path }
        if text.isEmpty then nextInput silently fuel else return true

def isLast : Edit Bool := do
  let e ← get
  if !e.lines.isEmpty then return false
  else
    if e.input == ['-'] then e.process.awaitEnd 0
    return !(← nextInput true (e.inputs.length + 1))

def nextLine : Edit (Option (Chars × Bool)) := do
  flushQueue
  let e ← get
  let more ← if !e.lines.isEmpty then pure true
    else do
      if e.input == ['-'] then e.process.awaitEnd 0
      nextInput false (e.inputs.length + 1)
  let e ← get
  match more, e.lines with
  | true, line :: rest =>
    set { e with lines := rest, number := e.number + 1, replaced := false }
    let ended := line.getLast? == some e.style.mark
    return some (if ended then line.dropLast else line, ended)
  | _, _ => return none

/-- Reads the next line into the pattern space; says whether there is one. -/
def readLine : Edit Bool := do
  match ← nextLine with
  | none => return false
  | some (line, ended) =>
    modify fun e => { e with space := line, ended := ended }
    return true

/-! ## Addresses -/

def subjectOf (text : Chars) (foldsCase manyLines : Bool) : Subject :=
  { text := text.toArray, foldsCase := foldsCase, manyLines := manyLines }

/-- The regular expression that is meant; nothing means the last one that was used. -/
def chosen (regex : Option Regex) : Edit Regex := do
  let e ← get
  match regex.or e.regex with
  | some r =>
    set { e with regex := some r }
    return r
  | none => e.process.fail 1 (e.scriptEnd ++ str "no previous regular expression")

def isAt (a : Address) : Edit Bool := do
  let e ← get
  match a with
  | .line n => return n == e.number
  | .step first step => return first ≤ e.number && (e.number - first) % step == 0
  | .last => isLast
  | .zero => return false
  | .pattern regex foldsCase manyLines =>
    return (← chosen regex).occursIn (subjectOf e.space foldsCase manyLines)

def setRange (place : Nat) (range : Range) : Edit Unit :=
  modify fun e => { e with ranges := e.ranges.setIfInBounds place range }

def beginRange (place : Nat) (stop : RangeEnd) : Edit Unit := do
  let n := (← get).number
  let until? : Option (Option Nat) := match stop with
    | .address (.line m) => some (some m)
    | .more m => some (some (n + m))
    | .multiple 0 => some (some n)
    | .multiple m => some (some ((n / m + 1) * m))
    | .address _ => some none
  match until? with
  | some (some m) => if n < m then setRange place (.active (some m))
  | _ => setRange place (.active none)

def concerns (place : Nat) (line : Line) : Edit Bool := do
  match line.first, line.stop with
  | none, _ => return true
  | some first, none => isAt first
  | some first, some stop =>
    let e ← get
    match first, e.ranges.getD place .idle with
    | _, .active (some m) =>
      if m ≤ e.number then setRange place .idle
      return e.number ≤ m
    | _, .active none =>
      if let .address a := stop then
        if ← isAt a then setRange place .idle
      return true
    | first, .idle =>
      if ← isAt first then
        beginRange place stop
        return true
      else return false

/-! ## Replacing -/

/-- How the letters that follow are written: all of them, and the next one. -/
structure Casing where
  all : Option Char := none
  next : Option Char := none

def Casing.apply (c : Casing) : Chars → Chars × Casing
  | [] => ([], c)
  | first :: rest =>
    let whole (letter : Option Char) (d : Char) : Char :=
      match letter with
      | some 'U' | some 'u' => d.toUpper
      | some 'L' | some 'l' => d.toLower
      | _ => d
    let front := if c.next.isSome then whole c.next first else whole c.all first
    (front :: rest.map (whole c.all), { c with next := none })

def replacementText (s : Subject) (groups : Groups) : List Replacement → Casing → Chars
  | [], _ => []
  | .casing letter :: rest, c =>
    let c : Casing := match letter with
      | 'E' => {}
      | 'U' | 'L' => { c with all := some letter }
      | letter => { c with next := some letter }
    replacementText s groups rest c
  | .text text :: rest, c =>
    let (text, c) := c.apply text
    text ++ replacementText s groups rest c
  | .group index :: rest, c =>
    let (text, c) := c.apply (Regex.groupText s groups index)
    text ++ replacementText s groups rest c

/-- The text with matches from `start` on replaced, if any is; `count` matches came before, the last
of which ended at `behind`.  `fuel` bounds the matches. -/
def replaceFrom (r : Regex) (sub : Substitution) (s : Subject) :
    (fuel : Nat) → (start count : Nat) → (behind : Option Nat) → Chars × Bool
  | 0, start, _, _ => (s.part start s.text.size, false)
  | fuel + 1, start, count, behind =>
    if s.text.size < start then ([], false)
    else
      match r.search s start with
      | none => (s.part start s.text.size, false)
      | some (i, j, groups) =>
        let front := s.part start i
        let isEmpty := i == j
        let step := if isEmpty then s.part i (i + 1) else []
        let next := if isEmpty then j + 1 else j
        if isEmpty && behind == some i then
          let (rest, replaced) := replaceFrom r sub s fuel next count none
          (front ++ step ++ rest, replaced)
        else if count + 1 < sub.number then
          let (rest, replaced) := replaceFrom r sub s fuel next (count + 1) (some j)
          (front ++ s.part i j ++ step ++ rest, replaced)
        else
          let new := replacementText s ((0, i, j) :: groups.filter (·.1 ≠ 0)) sub.replacement {}
          let rest := if sub.all then (replaceFrom r sub s fuel next (count + 1) (some j)).1
            else s.part next s.text.size
          (front ++ new ++ step ++ rest, true)

/-- Puts what a command prints into the pattern space. -/
def runSpace (command : Chars) : Edit Unit := do
  let e ← get
  let (text, _) ← e.process.readCommand e.start Process.shellWord command
  let text := if text.getLast? == some e.style.mark then text.dropLast else text
  modify fun e => { e with space := text }

def substitute (sub : Substitution) : Edit Unit := do
  let r ← chosen sub.regex
  let e ← get
  let s := subjectOf e.space sub.foldsCase sub.manyLines
  let (text, replaced) := replaceFrom r sub s (e.space.length + 2) 0 0 none
  if replaced then
    modify fun e => { e with space := text, replaced := true }
    if sub.printsBefore then printSpace
    if sub.runs then runSpace text
    if sub.prints then printSpace
    let text := (← get).space
    match sub.file.bind fun path => e.files.lookup path with
    | some stream => printLine stream text e.ended
    | none => pure ()

/-! ## Commands -/

/-- A text with its control characters made visible, in lines of a width. -/
def listing (width : Nat) (text : Chars) : Chars :=
  let shown := text.map fun c =>
    match c with
    | '\\' => str "\\\\"
    | '\x07' => str "\\a"
    | '\x08' => str "\\b"
    | '\x0c' => str "\\f"
    | '\n' => str "\\n"
    | '\r' => str "\\r"
    | '\t' => str "\\t"
    | '\x0b' => str "\\v"
    | c =>
      if c.toNat < 32 || 127 ≤ c.toNat then
        let n := c.toNat
        '\\' :: [n / 64, n / 8 % 8, n % 8].map fun d => Char.ofNat (d + 48)
      else [c]
  let (done, line) := shown.foldl (fun (done, line) item =>
    if 1 < width && width - 1 < line.length + item.length then (done ++ line ++ str "\\\n", item)
    else (done, line ++ item)) (([] : Chars), ([] : Chars))
  done ++ line ++ str "$\n"

def firstLine (mark : Char) (space : Chars) : Chars × Bool :=
  let front := space.takeWhile (· != mark)
  (front, front.length < space.length)

def placeOf (script : Array Line) (label : Chars) : Nat :=
  if label.isEmpty then script.size else ((labels script).lookup label).getD script.size

def enqueue (item : Queued) : Edit Unit :=
  modify fun e => { e with queue := e.queue ++ [item] }

/-- The next line of a file that is read line by line. -/
def nextOf (path : Chars) : Edit (Option Chars) := do
  let e ← get
  let lines ← match e.rests.lookup path with
    | some lines => pure lines
    | none =>
      match ← e.process.readPath path with
      | .ok text => pure (Chars.pieces e.style.mark text)
      | .error _ => pure []
  modify fun e => { e with
    rests := (path, lines.drop 1) :: e.rests.filter (·.1 ≠ path) }
  return lines.head?

def performPlain (place : Nat) (letter : Char) : Edit Flow := do
  let e ← get
  let mark := e.style.mark
  let next := Flow.go (place + 1)
  match letter with
  | '=' =>
    write 1 (Chars.ofNat e.number ++ ['\n']) true
    return next
  | 'd' => return .done false
  | 'D' =>
    let (front, hasMore) := firstLine mark e.space
    if hasMore then
      set { e with space := e.space.drop (front.length + 1) }
      return .again
    else return .done false
  | 'g' =>
    set { e with space := e.hold, ended := e.holdEnded }
    return next
  | 'G' =>
    set { e with space := e.space ++ mark :: e.hold }
    return next
  | 'h' =>
    set { e with hold := e.space, holdEnded := e.ended }
    return next
  | 'H' =>
    set { e with hold := e.hold ++ mark :: e.space }
    return next
  | 'x' =>
    set { e with space := e.hold, ended := e.holdEnded, hold := e.space, holdEnded := e.ended }
    return next
  | 'n' =>
    if ← isLast then return .done true
    else
      if !e.style.quiet then printSpace
      let _ ← readLine
      return next
  | 'N' =>
    if ← isLast then return .done true
    else
      match ← nextLine with
      | none => return .done true
      | some (line, ended) =>
        modify fun e => { e with space := e.space ++ mark :: line, ended := ended }
        return next
  | 'p' =>
    printSpace
    return next
  | 'P' =>
    printLine 1 (firstLine mark e.space).1 true
    return next
  | 'z' =>
    set { e with space := [] }
    return next
  | 'F' =>
    write 1 (e.input ++ ['\n']) true
    return next
  | _ => return next

def perform (place : Nat) (line : Line) : Edit Flow := do
  let e ← get
  let next := Flow.go (place + 1)
  match line.action with
  | .openBlock _ | .closeBlock | .label _ | .nothing => return next
  | .substitute sub =>
    substitute sub
    return next
  | .exchange source target =>
    let pairs := source.zip target
    set { e with space := e.space.map fun c => (pairs.lookup c).getD c }
    return next
  | .append text =>
    enqueue (.text text)
    return next
  | .insert text =>
    if !text.isEmpty then write 1 text true
    return next
  | .change text =>
    let isInside := match e.ranges.getD place .idle with
      | .active _ => !line.negated
      | .idle => false
    if !isInside && !text.isEmpty then write 1 text true
    return .done false
  | .branch kind label =>
    if kind == 'b' then return .go (placeOf e.script label)
    else
      set { e with replaced := false }
      return if e.replaced == (kind == 't') then .go (placeOf e.script label) else next
  | .readFile path =>
    enqueue (.file path)
    return next
  | .readLine path =>
    match ← nextOf path with
    | some text => enqueue (.text text)
    | none => pure ()
    return next
  | .writeFile path onlyFirst =>
    match e.files.lookup path with
    | some stream =>
      if onlyFirst then printLine stream (firstLine e.style.mark e.space).1 true
      else printLine stream e.space e.ended
    | none => pure ()
    return next
  | .quit silently code => return .quit (!silently) code
  | .list width =>
    write 1 (listing (width.getD e.style.width) e.space) true
    return next
  | .execute [] =>
    runSpace e.space
    return next
  | .execute command =>
    let (text, _) ← e.process.readCommand e.start Process.shellWord command
    if !text.isEmpty then write 1 text true
    return next
  | .plain letter => performPlain place letter

/-- Runs the commands from a place on, and goes on with the next lines; the status at the end.
`fuel` bounds the commands. -/
def run : (fuel : Nat) → (place : Nat) → Edit Nat
  | 0, _ => throw (.endless true)
  | fuel + 1, place => do
    let e ← get
    Machine.spend Machine.loopSteps
    Machine.spendCopying e.space.length
    let flow ← match e.script[place]? with
      | none => pure (.done true)
      | some line =>
        if (← concerns place line) != line.negated then perform place line
        else
          match line.action with
          | .openBlock stop => pure (.go stop)
          | _ => pure (.go (place + 1))
    match flow with
    | .go place => run fuel place
    | .again =>
      flushQueue
      run fuel 0
    | .done prints =>
      if prints && !e.style.quiet then printSpace
      if ← readLine then run fuel 0 else return (← get).status
    | .quit prints code =>
      if prints then
        if !e.style.quiet then printSpace
        flushQueue
      return code

/-! ## The program -/

/-- A piece of a script: how it is called in complaints, its text, and how many line feeds its file
has. -/
structure Piece where
  name : Option Chars
  text : Chars
  feeds : Nat := 0

/-- Where a fault in a piece of a script is; `index` counts the pieces among the arguments. -/
def Piece.front (piece : Piece) (index consumed : Nat) : Chars :=
  match piece.name with
  | some name =>
    str "file " ++ name ++ str " line " ++
      Chars.ofNat ((piece.text.take consumed).count '\n' + 1) ++ str ": "
  | none =>
    str "-e expression #" ++ Chars.ofNat index ++ str ", char " ++ Chars.ofNat consumed ++ str ": "

/-- Pieces of which one goes on in the next one, joined.  `fuel` bounds them. -/
def joined : List Piece → List Piece
  | first :: second :: rest =>
    let backslashes := (first.text.reverse.takeWhile (· == '\\')).length
    if backslashes % 2 = 1 && first.name.isNone && second.name.isNone then
      joined ({ first with text := first.text ++ '\n' :: second.text } :: rest)
    else first :: joined (second :: rest)
  | pieces => pieces
termination_by pieces => pieces.length

def argumentIndex (pieces : List Piece) (place : Nat) : Nat :=
  ((pieces.take (place + 1)).filter fun piece => piece.name.isNone).length

/-- Where a fault is in the piece at a place, with no character of an argument to blame. -/
def frontAt (pieces : List Piece) (place consumed : Nat) : Chars :=
  match pieces[place]? with
  | some piece =>
    piece.front (argumentIndex pieces place) (if piece.name.isNone then 0 else consumed)
  | none => []

def endOf (pieces : List Piece) : Chars :=
  match pieces.getLast? with
  | some { name := some name, feeds, .. } =>
    str "file " ++ name ++ str " line " ++ Chars.ofNat (feeds + 1) ++ str ": "
  | _ => frontAt pieces (pieces.length - 1) 0

/-- The commands of the pieces of a script from the one at a place on, or a fault in words. -/
def compile (extended : Bool) (pieces : List Piece) :
    List Piece → (place : Nat) → Reader → Except Chars Reader
  | [], _, r =>
    match r.blocks with
    | [] => .ok r
    | (_, place, consumed) :: _ =>
      .error (frontAt pieces place consumed ++ str "unmatched \x60\x7b'")
  | piece :: rest, place, r =>
    let r := { r with rest := piece.text, consumed := 0, extended := extended, piece := place }
    match (commands (piece.text.length + 2)).run r with
    | .ok ((), r) => compile extended pieces rest (place + 1) r
    | .error (consumed, complaint) =>
      .error (piece.front (argumentIndex pieces place) consumed ++ complaint)

def writtenPaths (script : Array Line) : List Chars :=
  (script.toList.filterMap fun line =>
    match line.action with
    | .writeFile path _ => some path
    | .substitute sub => sub.file
    | _ => none).eraseDups

/-- Opens the files that a script writes to, from a number of streams on. -/
def openFiles (p : Process) : List Chars → (number : Nat) → Act (Process × List (Chars × Nat))
  | [], _ => return (p, [])
  | path :: rest, number => do
    if path == str "/dev/stdout" then
      let (p, files) ← openFiles p rest number
      return (p, (path, 1) :: files)
    else
      match ← p.openPath path .write with
      | .ok opening =>
        let (p, files) ← openFiles (p.withStream number opening) rest (number + 1)
        return (p, (path, number) :: files)
      | .error fault =>
        p.fail 4 (str "couldn't open file " ++ path ++ str ": " ++ Process.reason fault)

def options : OptionTable :=
  { OptionTable.ofLetters "nErsuz" "efl"
      [("quiet", 'n', .nothing), ("silent", 'n', .nothing), ("expression", 'e', .argument),
        ("file", 'f', .argument), ("regexp-extended", 'E', .nothing),
        ("in-place", 'i', .optional), ("separate", 's', .nothing), ("unbuffered", 'u', .nothing),
        ("null-data", 'z', .nothing), ("line-length", 'l', .argument), ("posix", '1', .nothing),
        ("debug", '2', .nothing), ("sandbox", '3', .nothing),
        ("follow-symlinks", '4', .nothing)] 1 with
    letters := ("nErsuz".toList.map fun c => (c, .nothing)) ++
      ("efl".toList.map fun c => (c, .argument)) ++ [('i', .optional)] }

/-- The pieces of a script that the options and the first argument give, and the other arguments. -/
def pieces (p : Process) (given : List Given) (words : List Chars) :
    Act (List Piece × List Chars) := do
  let mut pieces : List Piece := []
  for (letter, argument) in given do
    let argument := argument.getD []
    if letter == 'e' then pieces := pieces ++ [{ name := none, text := argument }]
    else if letter == 'f' then
      match ← p.readInput argument with
      | .ok text =>
        let own := if text.getLast? == some '\n' then text.dropLast else text
        pieces := pieces ++ [{ name := some argument, text := own, feeds := text.count '\n' }]
      | .error fault =>
        p.fail 4 (str "couldn't open file " ++ argument ++ str ": " ++ Process.reason fault)
  if !pieces.isEmpty then return (joined pieces, words)
  else
    match words with
    | text :: rest => return ([{ name := none, text := text }], rest)
    | [] =>
      p.complain (str "Usage: " ++ p.name ++
        str " [OPTION]... \x7bscript-only-if-no-other-script\x7d [input-file]...\n")
      throw (.exited 1)

end ProductLine.Shell.Editing

namespace ProductLine.Shell

def Tool.sed (start : Program → Process → Act Unit) : Tool := fun p => do
  let (given, words) ← p.options Editing.options
  let has (c : Char) : Bool := Given.has given c
  let (pieces, names) ← Editing.pieces p given words
  let first := (pieces.head?.map Editing.Piece.text).getD []
  let isQuiet := first == str "#n" || Chars.startsWith first (str "#n\n")
  match Editing.compile (has 'E' || has 'r') pieces pieces 0 { rest := [] } with
  | .error complaint => p.fail 1 complaint
  | .ok reader =>
    let script := reader.lines
    match Editing.missingLabel? script with
    | some label => p.fail 4 (str "can't find label for jump to \x60" ++ label ++ ['\''])
    | none => pure ()
    let width ← match Given.last? given 'l' with
      | none => pure 70
      | some text =>
        match Chars.toNat? text with
        | some n => pure n
        | none => p.fail 1 (str "invalid line length: " ++ text)
    let inPlace := if has 'i' then some ((Given.last? given 'i').getD []) else none
    let style : Editing.Style :=
      { quiet := has 'n' || isQuiet, separate := has 's' || has 'i', inPlace := inPlace
        followsLinks := has '4'
        mark := if has 'z' then '\x00' else '\n', width := width }
    let (own, files) ← Editing.openFiles p (Editing.writtenPaths script) 10
    let ranges := script.map fun line =>
      match line.first with
      | some .zero => Editing.Range.active none
      | _ => .idle
    let editor : Editing.Editor :=
      { process := own, start := start, script := script, style := style, ranges := ranges
        scriptEnd := Editing.endOf pieces
        inputs := Process.inputNames names, files := files }
    let body : Editing.Edit Nat := do
      let status ← if ← Editing.readLine then Editing.run ((← getThe Machine).steps + 2) 0
        else pure (← get).status
      Editing.finishFile
      return status
    let (status, _) ← body.run editor
    Process.done status

end ProductLine.Shell
