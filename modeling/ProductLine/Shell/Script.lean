/- # Scripts — commands and the words they are made of

A word is a list of pieces: text, and what is put in place of parameters,
commands and arithmetic.  What is quoted is neither split into fields nor
taken as a pattern.  Two dialects of the language share these types; what
only one of them has is marked as such.
-/
import ProductLine.Shell.Chars

namespace ProductLine.Shell

/-- What is used in place of a parameter that is not set. -/
inductive Fallback where
  | value
  | assigned
  | complaint
  | alternative
deriving DecidableEq

/-- Where a pattern has to match in order to be replaced. -/
inductive Anchor where
  | anywhere
  | front
  | back
deriving DecidableEq

/-- How a file is connected to a stream. -/
inductive FileLink where
  | read
  | write
  | append
  | readWrite
  | clobber
deriving DecidableEq

/-- What follows the commands of a branch of a choice. -/
inductive BranchEnd where
  | done
  | fallThrough
  | testNext
deriving DecidableEq

mutual

/-- A piece of a word.  Of the extended dialect are the index of a parameter and the file that
stands for a command.  Commands whose output is used may be `isCopied` as they are written. -/
inductive Piece where
  | text (quoted : Bool) (s : Chars)
  | parameter (quoted : Bool) (name : Chars) (index : Option (List Piece)) (use : Usage)
  | output (quoted isCopied : Bool) (body : Option Command)
  | arithmetic (quoted : Bool) (body : List Piece)
  | process (reads : Bool) (body : Option Command)

/-- What is done with the value of a parameter.  From `replace` on, the extended dialect. -/
inductive Usage where
  | value
  | size
  | fallback (kind : Fallback) (orEmpty : Bool) (word : List Piece)
  | trim (front longest : Bool) (pattern : List Piece)
  | malformed (spelling : Chars)
  | replace (all : Bool) (anchor : Anchor) (pattern replacement : List Piece)
  | slice (offset : List Piece) (length : Option (List Piece))
  | recase (upper all : Bool) (pattern : List Piece)
  | indirect (use : Usage)
  | names
  | keys
  | transform (letter : Char)

/-- What stands in front of a command's words, or alone. -/
inductive Assignment where
  | scalar (name : Chars) (index : Option (List Piece)) (appends : Bool) (value : List Piece)
  | array (name : Chars) (appends : Bool) (items : List (Option (List Piece) × List Piece))

/-- How a stream is redirected.  The number of a stream may be kept in a variable that is
`named`. -/
inductive Redirection where
  | file (stream : Nat) (link : FileLink) (target : List Piece)
  | duplicate (stream : Nat) (target : List Piece)
  | document (stream number : Nat)
  | string (stream : Nat) (word : List Piece)
  | outputAndErrors (appends : Bool) (target : List Piece)
  | named (name : Chars) (r : Redirection)

/-- A condition of the extended dialect. -/
inductive Test where
  | word (w : List Piece)
  | unary (op : Chars) (w : List Piece)
  | binary (left : List Piece) (op : Chars) (right : List Piece)
  | not (t : Test)
  | and (a b : Test)
  | or (a b : Test)

/-- A command; `line` is where it begins.  In a sequence the second command may stand `apart`, on a
line of its own. -/
inductive Command where
  | simple (line : Nat) (assignments : List Assignment) (words : List (List Piece))
      (redirections : List Redirection)
  | pipeline (commands : List Command)
  | inverted (body : Command)
  | background (body : Command)
  | subshell (line : Nat) (body : Command)
  | redirected (line : Nat) (body : Command) (redirections : List Redirection)
  | sequence (apart : Bool) (first second : Command)
  | both (first second : Command)
  | either (first second : Command)
  | conditional (test yes : Command) (no : Option Command)
  | loop (untilTrue : Bool) (test body : Command)
  | forEach (line : Nat) (name : Chars) (items : Option (List (List Piece))) (body : Command)
  | choice (line : Nat) (subject : List Piece)
      (branches : List (List (List Piece) × Option Command × BranchEnd))
  | define (name : Chars) (body : Command)
  | condition (line : Nat) (test : Test)
  | arithmetic (line : Nat) (body : List Piece)
  | forArithmetic (line : Nat) (start test next : List Piece) (body : Command)
  | timed (body : Command)

end

abbrev Word := List Piece

def Redirection.onStream (n : Nat) : Redirection → Redirection
  | .file _ link target => .file n link target
  | .duplicate _ target => .duplicate n target
  | .document _ number => .document n number
  | .string _ word => .string n word
  | r => r

/-- The command is words with assignments and redirections, and no other commands. -/
def Command.isSimple : Command → Bool
  | .simple .. => true
  | _ => false

instance : Inhabited Command := ⟨.simple 0 [] [] []⟩

def Word.merged : Word → Word
  | .text q s :: rest =>
    match merged rest with
    | .text r t :: rest =>
      if q == r then .text q (s ++ t) :: rest else .text q s :: .text r t :: rest
    | rest => .text q s :: rest
  | piece :: rest => piece :: merged rest
  | [] => []

def Word.plain? : Word → Option Chars
  | [.text false s] => some s
  | _ => none

/-- The text of a word of which only the quotation is taken away. -/
def Word.unquoted (w : Word) : Chars :=
  w.flatMap fun
    | .text _ s => s
    | _ => []

def Word.hasQuotes (w : Word) : Bool :=
  w.any fun
    | .text quoted _ => quoted
    | _ => false

/-- The bodies of the documents that redirections refer to, by their numbers. -/
abbrev Documents := List (Nat × Word)

def openingBrace : Char := '\x7b'

/-- The quotation mark of a command whose output is used. -/
def backquote : Char := '\x60'

end ProductLine.Shell
