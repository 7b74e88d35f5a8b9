/- # Reading scripts — the text that is left, and what can be wrong with it

A script is read command by command, so a fault in a later line shows only
after the earlier lines have been run.  A reader keeps the text that is
left, the number of the line, a token that was looked at and not used, and
the documents that begin on the next line.
-/
import ProductLine.Shell.Script

namespace ProductLine.Shell

/-- What is wrong with a script.  A token that was not expected is given by its kind and by its
spelling, with the kind that was expected in its place; commands are `unclosed` if the parenthesis
after them is missing. -/
inductive ReadFaultKind where
  | unexpected (kind : String) (spelling : Chars) (expected : Option String)
  | endOfText (expected : Option String)
  | unterminated (mark : Char)
  | unended (what : String)
  | unclosed
  | condition (complaint : Option Chars) (near : Chars)
  | wording (text : String)
deriving DecidableEq

/-- What is wrong with a script, and in which line. -/
structure ReadFault where
  line : Nat
  kind : ReadFaultKind

/-- How a redirection begins.  The number of a stream may be kept in a variable that is `named`. -/
inductive RedirectionHead where
  | file (stream : Nat) (link : FileLink)
  | duplicate (stream : Nat)
  | document (stream : Nat) (stripsTabs : Bool)
  | string (stream : Nat)
  | outputAndErrors (appends : Bool)
  | named (name : Chars) (head : RedirectionHead)

/-- What a script consists of on the level of the grammar. -/
inductive Token where
  | endOfText
  | newline
  | semicolon
  | ampersand
  | and
  | or
  | bar (withErrors : Bool)
  | opening
  | closing
  | branchEnd (e : BranchEnd)
  | word (w : Word) (spelling : Chars)
  | array (name : Chars) (appends : Bool) (items : List (Option Word × Word))
  | redirection (head : RedirectionHead) (spelling : Chars)
  | keyword (k : String)

namespace Token

def kind : Token → String
  | endOfText => "end of file"
  | newline => "newline"
  | semicolon => "\";\""
  | ampersand => "\"&\""
  | and => "\"&&\""
  | or => "\"||\""
  | bar _ => "\"|\""
  | opening => "\"(\""
  | closing => "\")\""
  | branchEnd _ => "\";;\""
  | word .. | array .. => "word"
  | redirection .. => "redirection"
  | keyword k => "\"" ++ k ++ "\""

def spelling : Token → Chars
  | endOfText => []
  | newline => str "newline"
  | semicolon => str ";"
  | ampersand => str "&"
  | and => str "&&"
  | or => str "||"
  | bar true => str "|&"
  | bar false => str "|"
  | opening => str "("
  | closing => str ")"
  | branchEnd .done => str ";;"
  | branchEnd .fallThrough => str ";&"
  | branchEnd .testNext => str ";;&"
  | word _ s | redirection _ s => s
  | array name _ _ => name
  | keyword k => str k

def fault (t : Token) (expected : Option String) : ReadFaultKind :=
  match t with
  | endOfText => .endOfText expected
  | _ => .unexpected t.kind t.spelling expected

end Token

/-- A document whose body begins on the next line. -/
structure PendingDocument where
  number : Nat
  line : Nat
  delimiter : Chars
  stripsTabs : Bool
  quoted : Bool

/-- A document that ends with the script: in which line it was asked for, in which line the script
ends, and the delimiter that is missing. -/
structure UnendedDocument where
  asked : Nat
  ended : Nat
  delimiter : Chars

/-- Where the reading of a script stands.  `opened` is the line of the latest quotation mark or
bracket that has not been closed.  An alias is in use until no more is left of the text than there
was behind it; after one whose text ends with a blank the next word may be an alias too.  Patterns
may have `groups` if the script has asked for them, or where a condition compares with one. -/
structure Reader where
  extended : Bool
  groups : Bool := false
  rest : Chars
  aliases : List (Chars × Chars) := []
  inUse : List (Chars × Nat) := []
  goesOn : Option Nat := none
  line : Nat := 1
  opened : Nat := 1
  unended : List UnendedDocument := []
  pushed : Option Token := none
  pending : List PendingDocument := []
  documents : Documents := []
  nextDocument : Nat := 0

abbrev Read := StateT Reader (Except ReadFault)

/-- The kinds of lists of commands: a line of the script, the inside of a compound command, and
what may also be empty. -/
inductive ListMode where
  | line
  | block
  | optional
deriving DecidableEq

/-- What reads nested commands. -/
structure Nested where
  list : ListMode → Read (Option Command)
  command : Read Command

namespace Read

/-- Ends the reading with a fault in the present line. -/
def fault {α : Type} (kind : ReadFaultKind) : Read α := do
  throw ⟨(← get).line, kind⟩

/-- Ends the reading with a fault about a mark that was not closed. -/
def faultOpened {α : Type} (kind : ReadFaultKind) : Read α := do
  let r ← get
  throw ⟨if r.extended then r.opened else r.line, kind⟩

/-- Reads what a mark has opened that has just been read. -/
def opening {α : Type} (inside : Read α) : Read α := do
  let outer ← get
  set { outer with opened := outer.line }
  let result ← inside
  modify fun r => { r with opened := outer.opened }
  return result

/-- Drops line feeds that a backslash takes back. -/
def dropContinuations : (fuel : Nat) → Read Unit
  | 0 => return
  | fuel + 1 => do
    let r ← get
    match r.rest with
    | '\\' :: '\n' :: rest =>
      set { r with rest := rest, line := r.line + 1 }
      dropContinuations fuel
    | _ => return

/-- How many line feeds in a row a backslash may take back. -/
def maxContinuations : Nat := 1000

def peek : Read (Option Char) := do
  dropContinuations maxContinuations
  return (← get).rest.head?

/-- The next character as it is, without regard to backslashes before line feeds. -/
def rawNext : Read (Option Char) := do
  let r ← get
  match r.rest with
  | [] => return none
  | c :: rest =>
    set { r with rest := rest, line := if c == '\n' then r.line + 1 else r.line }
    return some c

def next : Read (Option Char) := do
  dropContinuations maxContinuations
  rawNext

/-- Drops the next character if it is the given one, and says whether it was. -/
def skip (c : Char) : Read Bool := do
  if (← peek) == some c then
    let _ ← rawNext
    return true
  else return false

/-- Drops the next character if it is the given one and `wanted` holds, and says whether it was. -/
def skipIf (wanted : Bool) (c : Char) : Read Bool :=
  if wanted then skip c else return false

/-- Drops characters in front as long as they pass a test, and gives them. -/
def takeWhile (test : Char → Bool) : (fuel : Nat) → Read Chars
  | 0 => return []
  | fuel + 1 => do
    match ← peek with
    | some c =>
      if test c then
        let _ ← rawNext
        return c :: (← takeWhile test fuel)
      else return []
    | none => return []

/-- The text up to a single quotation mark, which is dropped. -/
def singleQuoted : (fuel : Nat) → Read Chars
  | 0 => return []
  | fuel + 1 => do
    match ← rawNext with
    | none => faultOpened (.unterminated '\'')
    | some '\'' => return []
    | some c => return c :: (← singleQuoted fuel)

end Read

def isSpecialParameter (c : Char) : Bool :=
  c.isDigit || "#?$!@*-".toList.contains c

def endsWord (c : Char) : Bool :=
  " \t\n;&|<>()".toList.contains c

end ProductLine.Shell
