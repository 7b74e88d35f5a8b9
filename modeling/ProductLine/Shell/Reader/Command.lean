/- # Reading commands — the grammar of scripts

`Read.list` reads a list of commands: one line of the script with all that
belongs to it, or the inside of a compound command.  Every reader of nested
commands gets a smaller bound on how deep they may be nested.
-/
import ProductLine.Shell.Reader.Word

namespace ProductLine.Shell

namespace Read

/-! ## Tokens -/

def dropComment : Read Unit :=
  modify fun r => { r with rest := r.rest.dropWhile (· != '\n') }

/-- The rest of the operator that begins with a sign of input. -/
def inputHead (stream : Option Nat) : Read RedirectionHead := do
  let n := stream.getD 0
  if ← skip '<' then
    if ← skip '-' then return .document n true
    else if ← skipIf (← get).extended '<' then return .string n
    else return .document n false
  else if ← skip '&' then return .duplicate n
  else if ← skip '>' then return .file n .readWrite
  else return .file n .read

/-- The rest of the operator that begins with a sign of output. -/
def outputHead (stream : Option Nat) : Read RedirectionHead := do
  let n := stream.getD 1
  if ← skip '>' then return .file n .append
  else if ← skip '|' then return .file n .clobber
  else if ← skip '&' then
    let r ← get
    let isNumber := r.rest.head?.any fun c => c.isDigit || c == '-' || c == '$'
    if r.extended && stream.isNone && !isNumber then return .outputAndErrors false
    else return .duplicate n
  else return .file n .write

def redirectionHead (sign : Char) (stream : Option Nat) : Read RedirectionHead :=
  if sign == '<' then inputHead stream else outputHead stream

def arrayItems (nested : Nested) : (fuel : Nat) → Read (List (Option Word × Word))
  | 0 => return []
  | fuel + 1 => do
    match ← peek with
    | none => fault (.unended "')'")
    | some c =>
      if c == ')' then
        let _ ← rawNext
        return []
      else if " \t\n".toList.contains c then
        let _ ← rawNext
        arrayItems nested fuel
      else if c == '#' then
        dropComment
        arrayItems nested fuel
      else if endsWord c then
        let _ ← rawNext
        fault (.unexpected "" [c] none)
      else
        let index ← if c == '[' then
            let before ← get
            let _ ← rawNext
            let (index, _) ← pieces nested (before.rest.length + 1) (.braces true [']']) []
            if ← skip '=' then pure (some (Word.merged index))
            else
              set before
              pure none
          else pure none
        let item ← word nested .bare
        return (index, item) :: (← arrayItems nested fuel)

/-- The name in front of `=` or `+=` at the end of a text, and whether it appends. -/
def arrayName? (text : Chars) : Option (Chars × Bool) :=
  match text.reverse with
  | '=' :: '+' :: name => if Chars.isName name.reverse then some (name.reverse, true) else none
  | '=' :: name => if Chars.isName name.reverse then some (name.reverse, false) else none
  | _ => none

/-- The name and the bracket at the front of a text in which an index with blanks is assigned to. -/
def blankIndexFront? (text : Chars) : Option Chars :=
  let name := text.takeWhile Chars.isNameChar
  match text.drop name.length with
  | '[' :: rest =>
    let index := rest.takeWhile fun c => c != ']' && c != '\n'
    let follows := rest.drop index.length
    let isAssigned := (str "]=").isPrefixOf follows || (str "]+=").isPrefixOf follows
    let hasBlank := index.contains ' ' && !index.any fun c => "\"'$\x60\\;&|<>()".toList.contains c
    if Chars.isName name && isAssigned && hasBlank then some (name ++ ['[']) else none
  | _ => none

/-- A word, which may begin with an index that has blanks in it. -/
def indexedWord (nested : Nested) : Read Word := do
  let before ← get
  match if before.extended then blankIndexFront? before.rest else none with
  | none => word nested .bare
  | some front =>
    let text := before.rest.drop front.length
    let index := text.takeWhile (· != ']')
    for _ in front ++ index do
      let _ ← rawNext
    return Word.merged (.text false front :: .text true index :: (← word nested .bare))

def bracedName? (text : Chars) : Option Chars :=
  match text with
  | '\x7b' :: rest =>
    if rest.getLast? == some '\x7d' && Chars.isName rest.dropLast then some rest.dropLast else none
  | _ => none

/-- The token that begins with a word, an array or a redirection. -/
def wordToken (nested : Nested) : Read Token := do
  let before ← get
  let w ← indexedWord nested
  let after ← get
  let spelling := before.rest.take (before.rest.length - after.rest.length)
  let plain := (Word.plain? w).getD []
  let isNumber := w.isEmpty || (!plain.isEmpty && plain.all Char.isDigit &&
    (before.extended || plain.length == 1))
  let stream := if w.isEmpty then none else some (Chars.digitsValue plain)
  let named? := if before.extended then bracedName? plain else none
  match after.rest with
  | sign :: d :: _ =>
    if (sign == '<' || sign == '>') && w.isEmpty && d == '(' && before.extended then
      let _ ← rawNext
      let _ ← rawNext
      let body ← commandsToParenthesis nested
      let more ← word nested .bare
      return .word (.process (sign == '<') body :: more) [sign]
    else if (sign == '<' || sign == '>') && (isNumber || named?.isSome) then
      let _ ← rawNext
      let head ← redirectionHead sign stream
      return .redirection (named?.elim head (.named · head)) [sign]
    else if sign == '(' && before.extended then
      match arrayName? plain with
      | some (name, appends) =>
        let _ ← rawNext
        return .array name appends (← arrayItems nested (after.rest.length + 1))
      | none => return .word w spelling
    else return .word w spelling
  | sign :: _ =>
    if (sign == '<' || sign == '>') && isNumber then
      let _ ← rawNext
      return .redirection (← redirectionHead sign stream) [sign]
    else return .word w spelling
  | [] => return .word w spelling

def rawToken (nested : Nested) : (fuel : Nat) → Read Token
  | 0 => return .endOfText
  | fuel + 1 => do
    let extended := (← get).extended
    match ← peek with
    | none =>
      readPending nested
      return .endOfText
    | some c =>
      if endsWord c && c != '<' && c != '>' then
        let _ ← rawNext
        match c with
        | '\n' =>
          readPending nested
          return .newline
        | '&' =>
          if ← skip '&' then return .and
          else if extended && (← get).rest.head? == some '>' then
            let _ ← rawNext
            return .redirection (.outputAndErrors (← skip '>')) (str "&>")
          else return .ampersand
        | '|' =>
          if ← skip '|' then return .or
          else if ← skipIf extended '&' then return .bar true
          else return .bar false
        | ';' =>
          if ← skip ';' then
            if ← skipIf extended '&' then return .branchEnd .testNext
            else return .branchEnd .done
          else if ← skipIf extended '&' then return .branchEnd .fallThrough
          else return .semicolon
        | '(' => return .opening
        | ')' => return .closing
        | _ => rawToken nested fuel
      else if c == '#' then
        dropComment
        rawToken nested fuel
      else wordToken nested

/-- The words that are part of the grammar where a command can begin. -/
def keywords : List String :=
  ["!", "case", "do", "done", "elif", "else", "esac", "fi", "for", "if", "in", "then", "until",
    "while", "\x7b", "\x7d"]

def extendedKeywords : List String := ["[[", "function", "time"]

def asKeyword (extended : Bool) (t : Token) : Token :=
  match t with
  | .word w _ =>
    match Word.plain? w with
    | some text =>
      let k := String.ofList text
      if keywords.contains k || (extended && extendedKeywords.contains k) then .keyword k else t
    | none => t
  | _ => t

def anyToken (nested : Nested) : Read Token := do
  let r ← get
  match r.pushed with
  | some t =>
    set { r with pushed := none }
    return t
  | none => rawToken nested (r.rest.length + 2)

def tokenAfterNewlines (nested : Nested) : (fuel : Nat) → Read Token
  | 0 => return .endOfText
  | fuel + 1 => do
    match ← anyToken nested with
    | .newline => tokenAfterNewlines nested fuel
    | t => return t

/-- The next token: after line feeds, if they mean nothing here, and as a keyword, if it can be
one here. -/
def token (nested : Nested) (newlines isKeyword : Bool) : Read Token := do
  let r ← get
  let t ← if newlines then tokenAfterNewlines nested (r.rest.length + 2) else anyToken nested
  return if isKeyword then asKeyword r.extended t else t

def unread (t : Token) : Read Unit :=
  modify fun r => { r with pushed := some t }

/-- Puts the text of an alias in the place of a word that has just been read, if it is one. -/
def useAlias (w : Word) : Read Bool := do
  let r ← get
  let size := r.rest.length
  match Word.plain? w with
  | none => return false
  | some name =>
    if r.inUse.any fun used => used.1 == name && used.2 ≤ size then return false
    else
      match r.aliases.lookup name with
      | none => return false
      | some text =>
        let endsBlank := text.getLast? == some ' ' || text.getLast? == some '\t'
        set { r with
          rest := text ++ r.rest
          inUse := (name, size) :: r.inUse.filter (·.2 ≤ size)
          goesOn := if endsBlank then some size else none }
        return true

/-- The next token where a command can begin, with the texts of aliases in their places.  `fuel`
bounds the aliases. -/
def commandTokenWith (nested : Nested) (newlines : Bool) : (fuel : Nat) → Read Token
  | 0 => token nested newlines true
  | fuel + 1 => do
    match ← token nested newlines true with
    | .word w spelling =>
      if ← useAlias w then commandTokenWith nested newlines fuel else return .word w spelling
    | t => return t

def commandToken (nested : Nested) (newlines : Bool) : Read Token := do
  if (← get).aliases.isEmpty then token nested newlines true
  else commandTokenWith nested newlines ((← get).aliases.length + 1)

/-- A word behind the first one of a command is an alias, since the one before it ended with a
blank; its text has been put in its place. -/
def useAliasAfterBlank (w : Word) : Read Bool := do
  let r ← get
  match r.goesOn with
  | none => return false
  | some size =>
    if size ≤ r.rest.length then return false
    else
      set { r with goesOn := none }
      useAlias w

def refuse {α : Type} (t : Token) (expected : Option String) : Read α := do
  let r ← get
  let line := match t with
    | .newline => if r.extended then r.line - 1 else r.line
    | _ => r.line
  throw ⟨line, t.fault expected⟩

def keywordText (k : String) : String := "\"" ++ k ++ "\""

def expect (nested : Nested) (newlines : Bool) (k : String) : Read Unit := do
  match ← token nested newlines true with
  | .keyword found =>
    if found == k then return else refuse (.keyword found) (some (keywordText k))
  | t => refuse t (some (keywordText k))

def endsList : Token → Bool
  | .endOfText | .closing | .branchEnd _ => true
  | .keyword k => ["do", "done", "elif", "else", "esac", "fi", "then", "\x7d"].contains k
  | _ => false

/-! ## Redirections -/

/-- Adds a document whose body begins on the next line, and gives its number. -/
def addDocument (delimiter : Chars) (stripsTabs quoted : Bool) : Read Nat := do
  let r ← get
  let d : PendingDocument := ⟨r.nextDocument, r.line, delimiter, stripsTabs, quoted⟩
  set { r with pending := r.pending ++ [d], nextDocument := r.nextDocument + 1 }
  return d.number

/-- The delimiter of a document: a word in which nothing is put in place of anything. -/
def delimiterWord (nested : Nested) : Read (Option (Chars × Bool)) := do
  let _ ← takeWhile (fun c => c == ' ' || c == '\t') (← get).rest.length
  let before ← get
  let w ← word nested .bare
  let after ← get
  if w.isEmpty then return none
  else
    let spelling := before.rest.take (before.rest.length - after.rest.length)
    return some (if Word.hasQuotes w then Word.unquoted w else spelling, Word.hasQuotes w)

def redirection (nested : Nested) (head : RedirectionHead) : Read Redirection := do
  match head with
  | .named name head => return .named name (← redirection nested head)
  | .document stream strips =>
    match ← delimiterWord nested with
    | some (delimiter, quoted) =>
      return .document stream (← addDocument delimiter strips quoted)
    | none => refuse (← token nested false false) none
  | _ =>
    match ← token nested false false with
    | .word w _ =>
      match head with
      | .file stream link => return .file stream link w
      | .duplicate stream => return .duplicate stream w
      | .string stream => return .string stream w
      | .outputAndErrors appends => return .outputAndErrors appends w
      | .document stream _ => return .duplicate stream w
      | .named name _ => return .named name (.duplicate 0 w)
    | t => refuse t none

def redirections (nested : Nested) : (fuel : Nat) → Read (List Redirection)
  | 0 => return []
  | fuel + 1 => do
    match ← token nested false true with
    | .redirection head _ =>
      let first ← redirection nested head
      return first :: (← redirections nested fuel)
    | t =>
      unread t
      return []

/-! ## Simple commands -/

/-- A text up to the bracket that closes, and what follows it, or how many brackets are still open at
the end. -/
def splitClosing : (depth : Nat) → Chars → Chars × Except Nat Chars
  | depth, [] => ([], .error depth)
  | 0, ']' :: rest => ([], .ok rest)
  | depth, c :: rest =>
    let depth := if c == '[' then depth + 1 else if c == ']' then depth - 1 else depth
    let (front, after) := splitClosing depth rest
    (c :: front, after)

def splitIndex : (depth : Nat) → Word → Option (Word × Word)
  | _, [] => none
  | depth, .text false s :: rest =>
    match splitClosing depth s with
    | (front, .ok after) => some ([.text true front], .text false after :: rest)
    | (front, .error depth) =>
      (splitIndex depth rest).map fun (index, after) => (.text true front :: index, after)
  | depth, piece :: rest =>
    (splitIndex depth rest).map fun (index, after) => (piece :: index, after)

def assignment? (extended : Bool) (w : Word) : Option Assignment :=
  match w with
  | .text false s :: rest =>
    let name := s.takeWhile Chars.isNameChar
    let value (tail : Chars) (rest : Word) : Word :=
      if tail.isEmpty && !rest.isEmpty then rest else .text false tail :: rest
    if !Chars.isName name then none
    else
      match s.drop name.length with
      | '=' :: tail => some (.scalar name none false (value tail rest))
      | '+' :: '=' :: tail =>
        if extended then some (.scalar name none true (value tail rest)) else none
      | '[' :: tail =>
        if !extended then none
        else
          match splitIndex 0 (.text false tail :: rest) with
          | some (index, .text false ('=' :: tail) :: rest) =>
            some (.scalar name (some (Word.merged index)) false (value tail rest))
          | some (index, .text false ('+' :: '=' :: tail) :: rest) =>
            some (.scalar name (some (Word.merged index)) true (value tail rest))
          | _ => none
      | _ => none
  | _ => none

/-- The names of commands that are part of the language and cannot be defined anew. -/
def specialBuiltins : List String :=
  [".", ":", "break", "continue", "eval", "exec", "exit", "export", "local", "readonly", "return",
    "set", "shift", "times", "trap", "unset"]

/-- The parts of a simple command so far. -/
structure SimpleParts where
  assignments : List Assignment := []
  words : List Word := []
  redirections : List Redirection := []

/-- The body of a function; in the extended dialect it has to be a compound command. -/
def functionBody (nested : Nested) : Read Command := do
  let t ← token nested true true
  let isCompound := match t with
    | .keyword _ | .opening => true
    | _ => false
  if (← get).extended && !isCompound then refuse t none
  else
    unread t
    nested.command

/-- The definition of a function whose name and opening parenthesis have been read. -/
def functionDefinition (nested : Nested) (w : Word) : Read Command := do
  match ← token nested false false with
  | .closing =>
    let name := (Word.plain? w).getD []
    let extended := (← get).extended
    if (!Chars.isName name && !(extended && !name.isEmpty)) ||
        (!extended && specialBuiltins.contains (String.ofList name)) then
      fault (.wording "Bad function name")
    else return .define name (← functionBody nested)
  | t => refuse t (some "\")\"")

/-- How many words, assignments and redirections there are. -/
def SimpleParts.count (parts : SimpleParts) : Nat :=
  parts.assignments.length + parts.words.length + parts.redirections.length

/-- The line in which a simple command counts as being, when a token has been read behind `parts`; in
the extended dialect that is where its first assignment or its second word ends. -/
def lineOfSimple (parts : SimpleParts) (before : Reader) (t : Token) (line : Nat) : Read Nat := do
  let isFirst := parts.count = 0
  let isBehindWord := parts.count = 1 && parts.words.length = 1
  if !before.extended || !(isFirst || isBehindWord) then return line
  else
    let r ← get
    match t with
    | .newline => return if before.pending.isEmpty then r.line - 1 else before.line
    | _ => return r.line

def simple (nested : Nested) (line : Nat) : (fuel : Nat) → SimpleParts → Read Command
  | 0, parts => return .simple line parts.assignments parts.words parts.redirections
  | fuel + 1, parts => do
    let before ← get
    let extended := before.extended
    let t ← token nested false false
    let line ← lineOfSimple parts before t line
    match t with
    | .word w _ =>
      match if parts.words.isEmpty then assignment? extended w else none with
      | some a => simple nested line fuel { parts with assignments := parts.assignments ++ [a] }
      | none =>
        let isAlias ← if parts.words.isEmpty then useAlias w else useAliasAfterBlank w
        if isAlias then simple nested line fuel parts
        else simple nested line fuel { parts with words := parts.words ++ [w] }
    | .array name appends items =>
      if parts.words.isEmpty || extended then
        let a := Assignment.array name appends items
        simple nested line fuel { parts with assignments := parts.assignments ++ [a] }
      else refuse .opening none
    | .redirection head _ =>
      let r ← redirection nested head
      simple nested line fuel { parts with redirections := parts.redirections ++ [r] }
    | .opening =>
      match parts.words, parts.assignments, parts.redirections with
      | [w], [], [] => functionDefinition nested w
      | _, _, _ =>
        unread .opening
        return .simple line parts.assignments parts.words parts.redirections
    | t =>
      unread t
      return .simple line parts.assignments parts.words parts.redirections

/-! ## Conditions of the extended dialect -/

/-- The next word of a condition; nothing if an operator or the end comes first. -/
def testWord (nested : Nested) (place : Place) : Read (Option Word) := do
  let _ ← takeWhile (fun c => c == ' ' || c == '\t' || c == '\n') (← get).rest.length
  match ← peek with
  | none => return none
  | some c =>
    if (place == .bare && endsWord c) then return none
    else return some (← word nested place)

/-- The operators between the two sides of a condition. -/
def testOperators : List String :=
  ["=", "==", "!=", "=~", "<", ">", "-eq", "-ne", "-lt", "-le", "-gt", "-ge", "-nt", "-ot", "-ef"]

/-- The operator between two sides that comes next, if one does. -/
def testOperator? (nested : Nested) : Read (Option Chars) := do
  let _ ← takeWhile (fun c => c == ' ' || c == '\t') (← get).rest.length
  let before ← get
  match before.rest with
  | '<' :: _ =>
    let _ ← rawNext
    return some ['<']
  | '>' :: _ =>
    let _ ← rawNext
    return some ['>']
  | _ =>
    match ← testWord nested .bare with
    | some w =>
      match Word.plain? w with
      | some text =>
        if testOperators.contains (String.ofList text) then return some text
        else
          set before
          return none
      | none =>
        set before
        return none
    | none =>
      set before
      return none

/-- The word is an operator before one operand of a condition. -/
def testUnary (text : Chars) : Bool :=
  match text with
  | ['-', letter] => "abcdefghknoprstuvwxzGLNOSR".toList.contains letter
  | _ => false

/-- The complaint about what comes next in a condition, given how it is called if it is a word. -/
def testFault {α : Type} (complaint : Option String) : Read α := do
  let _ ← takeWhile (fun c => c == ' ' || c == '\t') (← get).rest.length
  let r ← get
  match r.rest with
  | [] => fault (.endOfText none)
  | c :: _ =>
    let word := if endsWord c then [c] else r.rest.takeWhile fun d => !endsWord d
    fault (.condition (complaint.map str) word)

/-- A condition without operators outside of parentheses; `all` reads what stands in them. -/
def testPart (nested : Nested) (all : Read Test) : (fuel : Nat) → Read Test
  | 0 => testFault none
  | fuel + 1 => do
    let _ ← takeWhile (fun c => c == ' ' || c == '\t' || c == '\n') (← get).rest.length
    let start ← get
    if ← skip '(' then
      let t ← all
      let _ ← takeWhile (fun c => c == ' ' || c == '\t' || c == '\n') (← get).rest.length
      if ← skip ')' then return t
      else testFault (some "unexpected token \x60]]', expected \x60)'")
    else
      match ← testWord nested .bare with
      | none => testFault none
      | some w =>
        let text := (Word.plain? w).getD []
        if text == ['!'] then return .not (← testPart nested all fuel)
        else if text == str "]]" then
          set start
          testFault none
        else
          match ← testOperator? nested with
          | some op =>
            let place := if op == str "=~" then Place.expression else .bare
            let before ← get
            let hasPattern := op == ['='] || op == str "==" || op == str "!="
            set { before with groups := before.groups || hasPattern }
            let unexpected : Read Test := do
              set before
              testFault (some "unexpected argument \x60]]' to conditional binary operator")
            let right ← testWord nested place
            modify fun r => { r with groups := before.groups }
            match right with
            | some right =>
              if Word.plain? right == some (str "]]") then unexpected else return .binary w op right
            | none => unexpected
          | none =>
            if testUnary text then
              let before ← get
              match ← testWord nested .bare with
              | some operand =>
                if Word.plain? operand == some (str "]]") then
                  set before
                  testFault (some "unexpected argument \x60]]' to conditional unary operator")
                else return .unary text operand
              | none => return .word w
            else
              let before ← get
              match ← testWord nested .bare with
              | some next =>
                set before
                if Word.plain? next == some (str "]]") then return .word w
                else testFault (some "conditional binary operator expected")
              | none =>
                set before
                if before.rest.head? == some '\n' then
                  fault (.condition (str
                    "unexpected token \x60newline', conditional binary operator expected") text)
                else return .word w

def testJoined (joins : Char) (join : Test → Test → Test) (part : Read Test) :
    (fuel : Nat) → Read Test
  | 0 => testFault none
  | fuel + 1 => do
    let first ← part
    let _ ← takeWhile (fun c => c == ' ' || c == '\t' || c == '\n') (← get).rest.length
    let r ← get
    match r.rest with
    | c :: d :: rest =>
      if c == joins && d == joins then
        set { r with rest := rest }
        return join first (← testJoined joins join part fuel)
      else return first
    | _ => return first

def test (nested : Nested) : (fuel : Nat) → Read Test
  | 0 => testFault none
  | fuel + 1 =>
    testJoined '|' .or (testJoined '&' .and (testPart nested (test nested fuel) (fuel + 1))
      (fuel + 1)) (fuel + 1)

def testToBrackets (nested : Nested) : Read Command := do
  let t ← test nested ((← get).rest.length + 2)
  let before ← get
  match ← testWord nested .bare with
  | some w =>
    if Word.plain? w == some (str "]]") then return .condition (← get).line t
    else
      set before
      testFault (some "syntax error in conditional expression")
  | none => testFault none

/-! ## Compound commands -/

def block (nested : Nested) : Read Command := do
  return (← nested.list .block).getD default

/-- The rest of a conditional, up to but without its last keyword. -/
def conditional (nested : Nested) : (fuel : Nat) → Read Command
  | 0 => return default
  | fuel + 1 => do
    let test ← block nested
    expect nested false "then"
    let yes ← block nested
    match ← token nested false true with
    | .keyword "elif" => return .conditional test yes (some (← conditional nested fuel))
    | .keyword "else" => return .conditional test yes (some (← block nested))
    | t =>
      unread t
      return .conditional test yes none

def loopItems (nested : Nested) : (fuel : Nat) → Read (List Word)
  | 0 => return []
  | fuel + 1 => do
    match ← token nested false false with
    | .word w _ => return w :: (← loopItems nested fuel)
    | .newline | .semicolon => return []
    | t => refuse t none

/-- The body of a loop, from its first keyword to its last; a block in braces may stand in its
place in the extended dialect. -/
def loopBody (nested : Nested) : Read Command := do
  match ← token nested true true with
  | .keyword "do" =>
    let body ← block nested
    expect nested false "done"
    return body
  | .keyword "\x7b" =>
    if (← get).extended then
      let body ← block nested
      expect nested false "\x7d"
      return body
    else refuse (.keyword "\x7b") (some (keywordText "do"))
  | t => refuse t (some (keywordText "do"))

/-- The three parts of a loop with arithmetic, whose parentheses have been opened. -/
def arithmeticLoop (nested : Nested) (line : Nat) : Read Command := do
  let fuel := (← get).rest.length + 1
  let part (stops : Chars) : Read (Word × Option Char) := do
    let (w, stop) ← pieces nested fuel (.braces true stops) []
    return (Word.merged w, stop)
  let (start, _) ← part [';']
  let (test, _) ← part [';']
  let (step, _) ← pieces nested fuel (.arithmetic 0) []
  match ← token nested false false with
  | .semicolon | .newline => pure ()
  | t => unread t
  return .forArithmetic line start test (Word.merged step) (← loopBody nested)

/-- The fault of a loop over items without a name for them. -/
def badVariable : ReadFaultKind := .wording "Bad for loop variable"

def forEach (nested : Nested) (line : Nat) : Read Command := do
  let extended := (← get).extended
  match ← token nested false false with
  | .word w _ =>
    match (Word.plain? w).filter fun name => extended || Chars.isName name with
    | none => fault badVariable
    | some name =>
      match ← token nested true true with
      | .keyword "in" =>
        let items ← loopItems nested ((← get).rest.length + 2)
        return .forEach line name (some items) (← loopBody nested)
      | .semicolon => return .forEach line name none (← loopBody nested)
      | t =>
        unread t
        return .forEach line name none (← loopBody nested)
  | .opening =>
    if ← skipIf extended '(' then arithmeticLoop nested line
    else fault badVariable
  | t => if extended then refuse t none else fault badVariable

/-- The patterns of a branch, from the given token to the closing parenthesis. -/
def patterns (nested : Nested) : (fuel : Nat) → Token → Read (List Word)
  | 0, _ => return []
  | fuel + 1, t => do
    let w ← match t with
      | .word w _ => pure w
      | .keyword k => pure [.text false (str k)]
      | t => refuse t (some "\")\"")
    match ← token nested false false with
    | .bar _ => return w :: (← patterns nested fuel (← token nested false false))
    | .closing => return [w]
    | t => refuse t (some "\")\"")

def branches (nested : Nested) :
    (fuel : Nat) → Read (List (List Word × Option Command × BranchEnd))
  | 0 => return []
  | fuel + 1 => do
    match ← token nested true true with
    | .keyword "esac" => return []
    | t =>
      let first ← match t with
        | .opening => token nested false false
        | t => pure t
      let ws ← patterns nested ((← get).rest.length + 2) first
      let body ← nested.list .optional
      match ← token nested true true with
      | .keyword "esac" => return [(ws, body, .done)]
      | .branchEnd e => return (ws, body, e) :: (← branches nested fuel)
      | t => refuse t (some "\";;\"")

def choice (nested : Nested) (line : Nat) : Read Command := do
  match ← token nested false false with
  | .word w _ =>
    let r ← get
    let line := if r.extended then r.line else line
    expect nested true "in"
    return .choice line w (← branches nested ((← get).rest.length + 2))
  | t => refuse t (some "word")

def redirected (nested : Nested) (line : Nat) (body : Command) : Read Command := do
  match ← redirections nested ((← get).rest.length + 2) with
  | [] => return body
  | rs => return .redirected line body rs

def keywordFunction (nested : Nested) : Read Command := do
  match ← token nested false false with
  | .word w _ =>
    match ← token nested false false with
    | .opening =>
      match ← token nested false false with
      | .closing => pure ()
      | t => refuse t none
    | t => unread t
    return .define (Word.unquoted w) (← functionBody nested)
  | t => refuse t none

def command (nested : Nested) : Read Command := do
  let line := (← get).line
  let t ← commandToken nested false
  match t with
  | .keyword "if" =>
    let c ← conditional nested ((← get).rest.length + 2)
    expect nested false "fi"
    redirected nested line c
  | .keyword "while" | .keyword "until" =>
    let test ← block nested
    expect nested false "do"
    let body ← block nested
    expect nested false "done"
    let untilTrue := match t with
      | .keyword "until" => true
      | _ => false
    redirected nested line (.loop untilTrue test body)
  | .keyword "for" => redirected nested line (← forEach nested line)
  | .keyword "case" => redirected nested line (← choice nested line)
  | .keyword "\x7b" =>
    let body ← block nested
    expect nested false "\x7d"
    redirected nested line body
  | .keyword "[[" => redirected nested line (← testToBrackets nested)
  | .keyword "function" => keywordFunction nested
  | .opening =>
    let r ← get
    if r.extended && r.rest.head? == some '(' then
      let arithmetic : Read Command := do
        let _ ← rawNext
        let (body, _) ← pieces nested (r.rest.length + 1) (.arithmetic 0) []
        return .arithmetic (← get).line (Word.merged body)
      match arithmetic.run r with
      | .ok (c, after) =>
        set after
        redirected nested line c
      | .error fault =>
        match (subshell line).run r with
        | .ok (c, after) =>
          set after
          return c
        | .error other =>
          match other.kind with
          | .endOfText _ => throw { fault with kind := .unended "')'" }
          | _ => throw other
    else subshell line
  | .word .. | .array .. | .redirection .. =>
    unread t
    simple nested line ((← get).rest.length + 2) {}
  | t => refuse t none
where
  /-- A list of commands in parentheses, the first of which has been read. -/
  subshell (line : Nat) : Read Command := do
    let body ← block nested
    match ← token nested false true with
    | .closing => redirected nested line (.subshell line body)
    | t => refuse t (some "\")\"")

/-! ## Lists of commands -/

def pipelineRest (nested : Nested) : (fuel : Nat) → Read (List Command)
  | 0 => return []
  | fuel + 1 => do
    match ← token nested false false with
    | .bar _ =>
      let t ← commandToken nested true
      unread t
      let c ← command nested
      return c :: (← pipelineRest nested fuel)
    | t =>
      unread t
      return []

/-- The command with its errors joined to its output, for a bar that carries both. -/
def withErrors (c : Command) : Command :=
  .redirected 0 c [.duplicate 2 [.text false ['1']]]

def pipeline (nested : Nested) : (fuel : Nat) → Read Command
  | 0 => return default
  | fuel + 1 => do
    match ← commandToken nested false with
    | .keyword "!" =>
      if (← get).extended then return .inverted (← pipeline nested fuel)
      else return .inverted (← commands)
    | .keyword "time" =>
      match ← token nested false false with
      | .word [.text false ['-', 'p']] _ => return .timed (← pipeline nested fuel)
      | t =>
        unread t
        return .timed (← pipeline nested fuel)
    | t =>
      unread t
      commands
where
  /-- The commands of a pipeline. -/
  commands : Read Command := do
    let first ← command nested
    let next ← token nested false false
    match next with
    | .bar errors =>
      let t ← commandToken nested true
      unread t
      let second ← command nested
      let rest ← pipelineRest nested ((← get).rest.length + 2)
      return .pipeline ((if errors then withErrors first else first) :: second :: rest)
    | t =>
      unread t
      return first

def joined (nested : Nested) : (fuel : Nat) → Command → Read Command
  | 0, first => return first
  | fuel + 1, first => do
    match ← token nested false false with
    | .and =>
      let t ← commandToken nested true
      unread t
      joined nested fuel (.both first (← pipeline nested fuel))
    | .or =>
      let t ← commandToken nested true
      unread t
      joined nested fuel (.either first (← pipeline nested fuel))
    | t =>
      unread t
      return first

def after (apart : Bool) (first : Option Command) (second : Command) : Command :=
  match first with
  | none => second
  | some c => .sequence apart c second

def listRest (nested : Nested) (mode : ListMode) :
    (fuel : Nat) → (mayEnd apart : Bool) → (sofar : Option Command) → Read (Option Command)
  | 0, _, _, sofar => return sofar
  | fuel + 1, mayEnd, apart, sofar => do
    let t ← commandToken nested (mode != .line)
    match t with
    | .newline => return sofar
    | .endOfText =>
      if mode == .block && !mayEnd && (← get).extended then refuse t none
      else
        unread t
        return sofar
    | _ =>
      unread t
      if mayEnd && endsList t && mode != .line then return sofar
      else
        let size := (← get).rest.length + 2
        let c ← joined nested size (← pipeline nested size)
        let joins (c : Command) : Option Command := some (after apart sofar c)
        match ← token nested false false with
        | .ampersand => listRest nested mode fuel true false (joins (.background c))
        | .semicolon => listRest nested mode fuel true false (joins c)
        | .newline =>
          if mode == .line then return joins c
          else listRest nested mode fuel true true (joins c)
        | .endOfText =>
          unread .endOfText
          return joins c
        | t =>
          if mode == .line then refuse (asKeyword (← get).extended t) none
          else
            unread t
            return joins c

def listAt : (depth : Nat) → ListMode → Read (Option Command)
  | 0, _ => fault (.wording "commands nested too deeply")
  | depth + 1, mode => do
    let nested : Nested :=
      { list := listAt depth
        command := do
          let nested : Nested :=
            { list := listAt depth, command := fault (.wording "Bad function name") }
          command nested }
    listRest nested mode ((← get).rest.length + 2) (mode == .optional) false none

/-- How deep commands may be nested. -/
def maxNesting : Nat := 400

/-- The commands of the next line of a script, with all that belongs to them; nothing if the line
is empty. -/
def nextLine : Read (Option Command) :=
  listAt maxNesting .line

end Read

end ProductLine.Shell
