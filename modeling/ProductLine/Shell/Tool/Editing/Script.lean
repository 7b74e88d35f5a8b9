/- # Scripts of `sed` — addresses and commands, and how they are read

A script is read character by character; the place of a fault is the number
of characters that have been read of its expression.  Commands stand in a
row: a block is a jump behind its end for lines that it does not concern.
-/
import ProductLine.Shell.Regex.Read
import ProductLine.Shell.Format

namespace ProductLine.Shell.Editing

/-- An address of lines.  A pattern may be the last one that was used. -/
inductive Address where
  | line (n : Nat)
  | step (first step : Nat)
  | last
  | zero
  | pattern (regex : Option Regex) (foldsCase manyLines : Bool)

inductive RangeEnd where
  | address (a : Address)
  | more (n : Nat)
  | multiple (n : Nat)

/-- A part of what is put in place of a match. -/
inductive Replacement where
  | text (s : Chars)
  | group (index : Nat)
  | casing (letter : Char)

/-- How matches are replaced.  What comes of it may be run as a command; then it is printed before
or after that. -/
structure Substitution where
  regex : Option Regex
  foldsCase : Bool := false
  manyLines : Bool := false
  replacement : List Replacement
  all : Bool := false
  number : Nat := 1
  prints : Bool := false
  printsBefore : Bool := false
  runs : Bool := false
  file : Option Chars := none

inductive Action where
  | openBlock (stop : Nat)
  | closeBlock
  | substitute (s : Substitution)
  | exchange (source target : Chars)
  | append (text : Chars)
  | insert (text : Chars)
  | change (text : Chars)
  | branch (kind : Char) (label : Chars)
  | label (name : Chars)
  | readFile (path : Chars)
  | readLine (path : Chars)
  | writeFile (path : Chars) (firstLine : Bool)
  | quit (silently : Bool) (code : Nat)
  | list (width : Option Nat)
  | execute (command : Chars)
  | plain (letter : Char)
  | nothing

/-- A command with the lines that it concerns. -/
structure Line where
  first : Option Address := none
  stop : Option RangeEnd := none
  negated : Bool := false
  action : Action

/-! ## Reading -/

/-- Where the reading of a script stands; blocks that are open are known by their places, by the
piece of the script in which they begin and by how many characters of it had been read. -/
structure Reader where
  rest : Chars
  consumed : Nat := 0
  extended : Bool := false
  lines : Array Line := #[]
  piece : Nat := 0
  blocks : List (Nat × Nat × Nat) := []

/-- A fault, with how many characters had been read. -/
abbrev Fault := Nat × Chars

abbrev Read := StateT Reader (Except Fault)

def fault {α : Type} (text : String) : Read α := do
  throw ((← get).consumed, text.toList)

def next : Read (Option Char) := do
  let r ← get
  match r.rest with
  | c :: rest =>
    set { r with rest := rest, consumed := r.consumed + 1 }
    return some c
  | [] => return none

def peek : Read (Option Char) := do
  return (← get).rest.head?

def drop (n : Nat) : Read Unit :=
  modify fun r => { r with rest := r.rest.drop n, consumed := r.consumed + min n r.rest.length }

def takeWhile (test : Char → Bool) : Read Chars := do
  let front := (← get).rest.takeWhile test
  drop front.length
  return front

def dropBlanks : Read Unit := do
  let _ ← takeWhile fun c => c == ' ' || c == '\t'

def number : Read Nat := do
  return Chars.digitsValue (← takeWhile Char.isDigit)

/-- Where the reading of a pattern stands: outside of brackets, in brackets with so many characters
behind it, or in a name within brackets that ends with a mark and a closing bracket. -/
inductive Enclosure where
  | outside
  | brackets (sofar : Nat)
  | name (mark : Char) (ends : Bool)

/-- Where the reading stands behind one more character, and with `following` next; outside of
brackets that is up to the reader. -/
def Enclosure.step (e : Enclosure) (c : Char) (following : Option Char) : Enclosure :=
  match e with
  | outside => outside
  | brackets n =>
    if c == ']' && 0 < n then outside
    else
      match c, following with
      | '[', some mark => if ":.=".toList.contains mark then name mark false else brackets (n + 1)
      | '^', _ => brackets (if n = 0 then 0 else n + 1)
      | _, _ => brackets (n + 1)
  | name mark ends =>
    if ends && c == ']' then brackets 1
    else name mark (c == mark && following == some ']')

/-- The text up to a delimiter.  In a pattern a delimiter may stand in brackets, and a line feed may
be written with a letter.  `fuel` bounds the characters. -/
def delimited (mark : Char) (isPattern : Bool) : (fuel : Nat) → Enclosure → Read (Option Chars)
  | 0, _ => return none
  | fuel + 1, enclosure => do
    match ← peek with
    | none => return none
    | some '\n' =>
      if isPattern then return none
      else
        let _ ← next
        return (← delimited mark isPattern fuel .outside).map ('\n' :: ·)
    | some c =>
      let _ ← next
      match enclosure with
      | .outside =>
        if c == mark then return some []
        else if c == '\\' then
          match ← next with
          | none => return none
          | some d =>
            let own := if d == mark && d != '&' then [d]
              else if d == 'n' && isPattern then ['\n']
              else if d == '\n' then ['\\', '\n']
              else ['\\', d]
            return (← delimited mark isPattern fuel .outside).map (own ++ ·)
        else
          let inside : Enclosure := if isPattern && c == '[' then .brackets 0 else .outside
          return (← delimited mark isPattern fuel inside).map (c :: ·)
      | inside =>
        let rest ← delimited mark isPattern fuel (inside.step c (← peek))
        return rest.map (c :: ·)

/-- The number in front that an escape with a letter spells, and how many digits it has. -/
def spelledNumber (letter : Char) (text : Chars) : Nat × Nat :=
  match letter with
  | 'x' => Chars.leadingNumber 16 (text.take 2) 0 0
  | 'o' => Chars.leadingNumber 8 (text.take 3) 0 0
  | 'd' => Chars.leadingNumber 10 (text.take 3) 0 0
  | _ => (0, 0)

/-- A pattern with the characters that are spelled as numbers, which stand for themselves.  `fuel`
bounds the characters. -/
def withNumbers (extended : Bool) : (fuel : Nat) → Chars → Chars
  | 0, text => text
  | _, [] => []
  | fuel + 1, '\\' :: c :: rest =>
    let (value, count) := spelledNumber c rest
    if count = 0 then '\\' :: c :: withNumbers extended fuel rest
    else
      let d := Char.ofNat (value % 256)
      let specials := if extended then "*.[]^$\\+?()|\x7b\x7d" else "*.[]^$\\"
      let own := if specials.toList.contains d then ['\\', d] else [d]
      own ++ withNumbers extended fuel (rest.drop count)
  | fuel + 1, c :: rest => c :: withNumbers extended fuel rest

/-- The regular expression that a text spells; an empty one is the last one that was used. -/
def pattern (text : Chars) : Read (Option Regex) := do
  if text.isEmpty then return none
  else
    let extended := (← get).extended
    let dialect : RegexDialect :=
      if extended then { extendedRegex with escapes := true }
      else { basicRegex with escapes := true, strandedBounds := .fault, stacking := false }
    match Regex.read dialect (withNumbers extended (text.length + 1) text) with
    | .ok regex => return some regex
    | .error complaint => fault complaint

/-- A pattern between delimiters, of which the first one has been read. -/
def patternAddress (mark : Char) : Read Address := do
  match ← delimited mark true ((← get).rest.length + 1) .outside with
  | none => fault "unterminated address regex"
  | some text =>
    let flags ← takeWhile fun c => c == 'I' || c == 'M'
    let regex ← pattern text
    return .pattern regex (flags.contains 'I') (flags.contains 'M')

def address? : Read (Option Address) := do
  match ← peek with
  | some '/' =>
    drop 1
    return some (← patternAddress '/')
  | some '\\' =>
    drop 1
    match ← next with
    | some mark => return some (← patternAddress mark)
    | none => fault "unexpected `,'"
  | some '$' =>
    drop 1
    return some .last
  | some c =>
    if !c.isDigit then return none
    else
      let n ← number
      dropBlanks
      if (← peek) == some '~' then
        drop 1
        dropBlanks
        let step ← number
        return some (if step = 0 then .line n else .step n step)
      else return some (if n = 0 then .zero else .line n)
  | none => return none

def rangeEnd? : Read (Option RangeEnd) := do
  match ← peek with
  | some '+' =>
    drop 1
    return some (.more (← number))
  | some '~' =>
    drop 1
    return some (.multiple (← number))
  | _ => return (← address?).map .address

/-- The end of a command: a semicolon, a line feed, or the bracket that closes a block. -/
def commandEnd : Read Unit := do
  dropBlanks
  match ← peek with
  | none | some '\x7d' | some '#' => return
  | some c =>
    drop 1
    if c != ';' && c != '\n' then fault "extra characters after command"

/-- The name of a label or a file, up to the end of the line. -/
def restOfLine : Read Chars := do
  dropBlanks
  let text ← takeWhile (· != '\n')
  drop 1
  return text

def labelName : Read Chars := do
  dropBlanks
  let text ← takeWhile fun c => c != '\n' && c != ';' && c != '\x7d'
  let _ ← takeWhile (· == ';')
  return (text.reverse.dropWhile Chars.isSpace).reverse

def fileName : Read Chars := do
  let name ← restOfLine
  if name.isEmpty then fault "missing filename in r/R/w/W commands" else return name

/-- The lines of a text, of which all but the last end with a backslash.  `fuel` bounds the
characters. -/
def textLines : (fuel : Nat) → Read Chars
  | 0 => return []
  | fuel + 1 => do
    match ← next with
    | none => return ['\n']
    | some '\n' => return ['\n']
    | some '\\' =>
      match ← next with
      | none => return ['\n']
      | some c =>
        let e : Escapes := { zeroOctal := false, plainOctal := false, escapeChar := false }
        let own := if c == '\n' || c == '\\' then c
          else if "antrfv".toList.contains c then (e.letter? c).getD c else c
        return own :: (← textLines fuel)
    | some c => return c :: (← textLines fuel)

def addedText : Read Chars := do
  dropBlanks
  match ← peek with
  | none => fault "expected \\ after \x60a', \x60c' or \x60i'"
  | some '\\' =>
    drop 1
    let blanks ← takeWhile fun c => c == ' ' || c == '\t'
    match ← peek with
    | none => return []
    | some '\n' =>
      drop 1
      if (← peek).isNone then return [] else textLines ((← get).rest.length + 1)
    | some _ => return blanks ++ (← textLines ((← get).rest.length + 1))
  | some _ => textLines ((← get).rest.length + 1)

/-- The parts of what is put in place of a match.  `fuel` bounds the characters. -/
def replacementParts : (fuel : Nat) → Chars → List Replacement
  | 0, _ => []
  | _, [] => []
  | _, ['\\'] => [.text ['\\']]
  | fuel + 1, '\\' :: c :: rest =>
    if c.isDigit then .group (c.toNat - '0'.toNat) :: replacementParts fuel rest
    else if "LUluE".toList.contains c then .casing c :: replacementParts fuel rest
    else
      let e : Escapes := { zeroOctal := false, plainOctal := false, escapeChar := false }
      let (value, count) := spelledNumber c rest
      let own := if "antrfv".toList.contains c then (e.letter? c).getD c else c
      if count = 0 then .text [own] :: replacementParts fuel rest
      else .text [Char.ofNat (value % 256)] :: replacementParts fuel (rest.drop count)
  | fuel + 1, '&' :: rest => .group 0 :: replacementParts fuel rest
  | fuel + 1, c :: rest => .text [c] :: replacementParts fuel rest

def groupCount : Regex → Nat
  | .group index body => max index (groupCount body)
  | .sequence a b | .either a b => max (groupCount a) (groupCount b)
  | .times _ _ body => groupCount body
  | _ => 0

def substitutionOptions : (fuel : Nat) → (seen : Chars) → Substitution → Read Substitution
  | 0, _, s => return s
  | fuel + 1, seen, s => do
    match ← peek with
    | none | some '\x7d' | some '#' => return s
    | some c =>
      if c.isDigit then
        let n ← do
          let digits ← takeWhile Char.isDigit
          pure (Chars.digitsValue digits)
        if seen.contains '1' then fault "multiple number options to \x60s' command"
        else if n = 0 then fault "number option to \x60s' command may not be zero"
        else substitutionOptions fuel ('1' :: seen) { s with number := n }
      else
        drop 1
        match c with
        | ' ' | '\t' => substitutionOptions fuel seen s
        | ';' | '\n' => return s
        | 'g' =>
          if seen.contains 'g' then fault "multiple \x60g' options to \x60s' command"
          else substitutionOptions fuel ('g' :: seen) { s with all := true }
        | 'p' =>
          if seen.contains 'p' then fault "multiple \x60p' options to \x60s' command"
          else if s.runs then substitutionOptions fuel ('p' :: seen) { s with prints := true }
          else substitutionOptions fuel ('p' :: seen) { s with printsBefore := true }
        | 'i' | 'I' => substitutionOptions fuel seen { s with foldsCase := true }
        | 'm' | 'M' => substitutionOptions fuel seen { s with manyLines := true }
        | 'e' => substitutionOptions fuel seen { s with runs := true }
        | 'w' => return { s with file := some (← fileName) }
        | _ => fault "unknown option to \x60s'"

def substitution : Read Action := do
  let unterminated {α : Type} : Read α := fault "unterminated \x60s' command"
  match ← next with
  | none | some '\n' | some '\\' => unterminated
  | some mark =>
    match ← delimited mark true ((← get).rest.length + 1) .outside with
    | none =>
      drop (← get).rest.length
      unterminated
    | some source =>
      match ← delimited mark false ((← get).rest.length + 1) .outside with
      | none =>
        drop (← get).rest.length
        unterminated
      | some text =>
        let parts := replacementParts (text.length + 1) text
        let s ← substitutionOptions 1000 [] { regex := none, replacement := parts }
        let regex ← pattern source
        let most := regex.elim 9 groupCount
        for part in parts do
          match part with
          | .group n =>
            if most < n then
              fault ("invalid reference \\" ++ toString n ++ " on \x60s' command's RHS")
          | _ => pure ()
        return .substitute { s with regex := regex }

/-- A text of the command that exchanges characters, with its escapes taken away. -/
def unescaped : Chars → Chars
  | '\\' :: 'n' :: rest => '\n' :: unescaped rest
  | '\\' :: 't' :: rest => '\t' :: unescaped rest
  | '\\' :: c :: rest => c :: unescaped rest
  | c :: rest => c :: unescaped rest
  | [] => []

/-- The command that exchanges characters, of which the letter has been read. -/
def exchange : Read Action := do
  let unterminated {α : Type} : Read α := do
    drop (← get).rest.length
    fault "unterminated \x60y' command"
  match ← next with
  | none => unterminated
  | some mark =>
    match ← delimited mark false ((← get).rest.length + 1) .outside with
    | none => unterminated
    | some source =>
      match ← delimited mark false ((← get).rest.length + 1) .outside with
      | none => unterminated
      | some target =>
        let source := unescaped source
        let target := unescaped target
        if source.length != target.length then
          fault "strings for \x60y' command are different lengths"
        else
          commandEnd
          return .exchange source target

def optionalNumber : Read (Option Nat) := do
  dropBlanks
  let digits ← takeWhile Char.isDigit
  return if digits.isEmpty then none else some (Chars.digitsValue digits)

def add (line : Line) : Read Unit :=
  modify fun r => { r with lines := r.lines.push line }

def command (line : Line) : Read Unit := do
  let finish (action : Action) : Read Unit := do
    commandEnd
    add { line with action := action }
  match ← next with
  | none => fault "missing command"
  | some c =>
    match c with
    | '\x7b' =>
      modify fun r => { r with blocks := (r.lines.size, r.piece, r.consumed) :: r.blocks }
      add { line with action := .openBlock 0 }
    | '\x7d' =>
      match (← get).blocks with
      | [] => fault "unexpected \x60\x7d'"
      | (start, _) :: others =>
        if line.first.isSome then fault "\x7d doesn't want any addresses"
        modify fun r => { r with
          blocks := others
          lines := r.lines.modify start fun l => { l with action := .openBlock r.lines.size } }
        finish .closeBlock
    | '#' =>
      if line.first.isSome then fault "comments don't accept any addresses"
      let _ ← restOfLine
    | ':' =>
      if line.first.isSome then fault ": doesn't want any addresses"
      dropBlanks
      let name ← takeWhile fun c => !Chars.isSpace c && c != ';'
      if name.isEmpty then fault "\":\" lacks a label"
      finish (.label name)
    | 's' => add { line with action := ← substitution }
    | 'y' => add { line with action := ← exchange }
    | 'a' => add { line with action := .append (← addedText) }
    | 'i' => add { line with action := .insert (← addedText) }
    | 'c' => add { line with action := .change (← addedText) }
    | 'b' | 't' | 'T' => add { line with action := .branch c (← labelName) }
    | 'r' => add { line with action := .readFile (← fileName) }
    | 'R' => add { line with action := .readLine (← fileName) }
    | 'w' => add { line with action := .writeFile (← fileName) false }
    | 'W' => add { line with action := .writeFile (← fileName) true }
    | 'q' | 'Q' =>
      if line.stop.isSome then fault "command only uses one address"
      finish (.quit (c == 'Q') ((← optionalNumber).getD 0))
    | 'l' | 'L' => finish (.list (← optionalNumber))
    | 'e' => add { line with action := .execute (← restOfLine) }
    | 'v' =>
      let _ ← takeWhile fun c => c != '\n' && c != ';'
      finish .nothing
    | c =>
      if "=dDgGhHnNpPxzF".toList.contains c then finish (.plain c)
      else fault ("unknown command: \x60" ++ String.singleton c ++ "'")

def commands : (fuel : Nat) → Read Unit
  | 0 => return
  | fuel + 1 => do
    let _ ← takeWhile fun c => Chars.isSpace c || c == ';'
    match ← peek with
    | none => return
    | some _ =>
      let first ← address?
      dropBlanks
      let stop ← if first.isSome && (← peek) == some ',' then do
          drop 1
          dropBlanks
          match ← rangeEnd? with
          | some stop => pure (some stop)
          | none =>
            drop 1
            fault "unexpected \x60,'"
        else pure none
      match first, stop with
      | some .zero, some (.address (.pattern ..)) => pure ()
      | some .zero, _ =>
        drop 1
        fault "invalid usage of line address 0"
      | _, _ => pure ()
      dropBlanks
      let negated ← if (← peek) == some '!' then do
          drop 1
          let _ ← takeWhile Chars.isSpace
          if (← peek) == some '!' then
            drop 1
            fault "multiple \x60!'s"
          pure true
        else pure false
      command { first := first, stop := stop, negated := negated, action := .nothing }
      commands fuel

def labels (lines : Array Line) : List (Chars × Nat) :=
  lines.toList.zipIdx.filterMap fun (line, i) =>
    match line.action with
    | .label name => some (name, i)
    | _ => none

/-- The first label that is jumped to, but does not exist. -/
def missingLabel? (lines : Array Line) : Option Chars :=
  lines.toList.findSome? fun line =>
    match line.action with
    | .branch _ name =>
      if name.isEmpty || (labels lines).any (·.1 == name) then none else some name
    | _ => none

end ProductLine.Shell.Editing
