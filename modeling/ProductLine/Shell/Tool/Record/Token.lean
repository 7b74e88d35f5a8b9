/- # Tokens of `awk` — what a program consists of

Numbers, texts and regular expressions are cut off the front of a text here,
each with what follows it.  Where a slash begins a regular expression, and
where it divides, is said by the token before it.
-/
import ProductLine.Shell.Format
import ProductLine.Shell.Regex.Read
import ProductLine.Shell.Tool.Record.Program

namespace ProductLine.Shell.Record

/-! ## Tokens -/

/-- What a program consists of on the level of the grammar.  A `count` is the name of the number of
fields, a `sink` stands before where output goes, a `source` before the file that is read; a `closing`
is a brace that ends a statement before it ends a block, and a `stray` is of no use anywhere. -/
inductive Token where
  | number (x : Float) (spelling : Chars)
  | text (s : Chars)
  | regex (s : Chars) (r : Option Regex)
  | name (s : Chars)
  | function (s : Chars)
  | count
  | builtin (s : String)
  | word (s : String)
  | op (s : String)
  | sink (s : Sink)
  | source
  | closing
  | newline
  | stray (c : Char)
  | ended

def words : List String :=
  ["BEGIN", "END", "function", "if", "else", "while", "for", "do", "break", "continue", "next",
    "nextfile", "exit", "return", "delete", "in", "getline", "print", "printf"]

/-- The functions that every program has, with the least and the greatest number of arguments; those
whose arguments are of their own form have none. -/
def builtins : List (String × Option (Nat × Nat)) :=
  [("length", none), ("split", none), ("sub", none), ("gsub", none), ("match", none),
    ("index", some (2, 2)), ("substr", some (2, 3)), ("sprintf", some (1, 255)),
    ("sin", some (1, 1)), ("cos", some (1, 1)), ("atan2", some (2, 2)), ("exp", some (1, 1)),
    ("log", some (1, 1)), ("sqrt", some (1, 1)), ("int", some (1, 1)), ("rand", some (0, 0)),
    ("srand", some (0, 1)), ("close", some (1, 1)), ("system", some (1, 1)),
    ("toupper", some (1, 1)), ("tolower", some (1, 1)), ("fflush", some (0, 1)),
    ("systime", some (0, 0)), ("mktime", some (1, 1)), ("strftime", some (0, 3))]

def operators : List String :=
  ["&&", "||", "==", "<=", ">=", "!=", "++", "--", "+=", "-=", "*=", "/=", "%=", "^=", "!~",
    "\x7b", "\x7d", "(", ")", "[", "]", ";", ",", "+", "-", "*", "/", "%", "^", "!", ">", "<", "|",
    "?", ":", "~", "$", "="]

def Token.spelling : Token → Chars
  | number _ s | name s | function s | text s => s
  | regex s _ => '/' :: s ++ ['/']
  | count => ['$']
  | builtin s | word s | op s => str s
  | sink .file => ['>']
  | sink .appended => str ">>"
  | sink .command => ['|']
  | source => ['<']
  | closing => ['\x7d']
  | newline => str "end of line"
  | stray c => [c]
  | ended => str "end of file"

def Token.isSeparator : Token → Bool
  | op s => s == ";"
  | closing | newline => true
  | _ => false

/-- What a slash does: it divides, or it begins a regular expression, of which it may drop the first
character. -/
inductive Slash where
  | divides
  | begins
  | bites

def Token.slash : Token → Slash
  | number .. | text _ | name _ | regex .. | count => .divides
  | word s => if s == "getline" then .divides else .begins
  | op s =>
    if s == ")" || s == "]" then .divides else if s == "++" || s == "--" then .bites else .begins
  | _ => .begins

/-! ## Parts of texts -/

/-- What is left of a text behind its blanks and comments, and behind its line feeds if they are
blanks too; the number of lines that end there.  A backslash at the end of a line joins it to the
next.  `fuel` bounds the characters. -/
def skipBlanks (feeds : Bool) : (fuel : Nat) → Chars → Nat → Chars × Nat
  | 0, text, lines => (text, lines)
  | _, [], lines => ([], lines)
  | fuel + 1, c :: rest, lines =>
    if c == '\n' then
      if feeds then skipBlanks feeds fuel rest (lines + 1) else (c :: rest, lines)
    else if Chars.isSpace c then skipBlanks feeds fuel rest lines
    else if c == '#' then skipBlanks feeds fuel (rest.dropWhile (· != '\n')) lines
    else if c == '\\' then
      match rest.dropWhile fun c => c != '\n' && Chars.isSpace c with
      | '\n' :: rest => skipBlanks feeds fuel rest (lines + 1)
      | _ => (c :: rest, lines)
    else (c :: rest, lines)

def readNumber (text : Chars) : Option (Float × Chars) :=
  let whole := text.takeWhile Char.isDigit
  let after := text.drop whole.length
  let (places, after) := match after with
    | '.' :: rest =>
      let digits := rest.takeWhile Char.isDigit
      (digits, rest.drop digits.length)
    | rest => ([], rest)
  if whole.isEmpty && places.isEmpty then none
  else
    let (exponent, after) : Int × Chars := match after with
      | e :: rest =>
        if e == 'e' || e == 'E' then
          let (sign, digits) := match rest with
            | '-' :: rest => ((-1 : Int), rest)
            | '+' :: rest => (1, rest)
            | rest => (1, rest)
          let shown := digits.takeWhile Char.isDigit
          if shown.isEmpty then (0, after)
          else (sign * Chars.digitsValue (shown.take 5), digits.drop shown.length)
        else (0, after)
      | [] => (0, after)
    let power := exponent - places.length
    some (Float.ofScientific (Chars.digitsValue (whole ++ places)) (power < 0) power.natAbs, after)

def textEscapes : Escapes :=
  { zeroOctal := false, plainOctal := true, hex := true, quotes := false, escapeChar := false }

/-- The text up to a quotation mark, with its escapes replaced, and what follows.  `fuel` bounds the
characters. -/
def readText : (fuel : Nat) → Chars → Option (Chars × Chars)
  | 0, _ => none
  | _, [] => none
  | _, '\n' :: _ => none
  | _, '"' :: rest => some ([], rest)
  | fuel + 1, '\\' :: c :: rest =>
    if c == '"' || c == '/' then (readText fuel rest).map fun (s, after) =>
      (if c == '/' then '\\' :: c :: s else c :: s, after)
    else if c == '\n' then readText fuel rest
    else
      let (front, after) := (textEscapes.decode (c :: rest)).getD ([c], rest)
      (readText fuel after).map fun (s, after) => (front ++ s, after)
  | fuel + 1, c :: rest => (readText fuel rest).map fun (s, after) => (c :: s, after)

/-- The regular expression up to a slash, and what follows.  `fuel` bounds the characters. -/
def readPattern : (fuel : Nat) → (inBrackets : Option Nat) → Chars → Option (Chars × Chars)
  | 0, _, _ => none
  | _, _, [] => none
  | _, _, '\n' :: _ => none
  | fuel + 1, brackets, c :: rest =>
    match brackets with
    | some n =>
      let closes := c == ']' && 0 < n
      let next := if closes then none else some (if c == '^' && n = 0 then 0 else n + 1)
      (readPattern fuel next rest).map fun (s, after) => (c :: s, after)
    | none =>
      if c == '/' then some ([], rest)
      else if c == '\\' then
        match rest with
        | '/' :: rest => (readPattern fuel none rest).map fun (s, after) => ('/' :: s, after)
        | d :: rest => (readPattern fuel none rest).map fun (s, after) => (c :: d :: s, after)
        | [] => none
      else
        let next := if c == '[' then some 0 else none
        (readPattern fuel next rest).map fun (s, after) => (c :: s, after)

def shownLine (text : Chars) : Chars :=
  (text.takeWhile (· != '\n')).take 10

/-! ## Regular expressions -/

/-- What is wrong with the operands of a regular expression; `wanted` says that one has to come
next, and `behind` is the character before. -/
def operandFault? : (depth : Nat) → (wanted inBrackets : Bool) → (behind : Char) → Chars →
    Option String
  | _, wanted, _, behind, [] =>
    if wanted && behind == '|' then some "missing operand" else none
  | depth, wanted, inBrackets, behind, c :: rest =>
    if inBrackets then
      operandFault? depth false (c != ']' || behind == '[') c rest
    else
      match c with
      | '(' => operandFault? (depth + 1) true false c rest
      | '|' =>
        if wanted then some "missing operand" else operandFault? depth true false c rest
      | ')' =>
        if depth = 0 then operandFault? 0 false false c rest
        else if wanted then some "missing operand"
        else operandFault? (depth - 1) false false c rest
      | '*' | '+' | '?' =>
        if behind == '^' && wanted && c != '?' then some "syntax error ^* or ^+"
        else if wanted && behind != '^' then some "missing operand"
        else operandFault? depth false false c rest
      | '\\' =>
        match rest with
        | e :: rest => operandFault? depth false false e rest
        | [] => none
      | '^' => operandFault? depth wanted false c rest
      | _ => operandFault? depth false (c == '[') c rest

/-- The regular expression that a text spells, or what is wrong with it. -/
def pattern (text : Chars) : Except Chars Regex := do
  let fault (reason : String) : Except Chars Regex :=
    .error (str "regular expression compile failed (" ++ str reason ++ str ")\n" ++ text)
  let dialect : RegexDialect :=
    { extendedRegex with
      codes := true, stranded := .character, strandedBounds := .character, braceIsText := true
      closingIsText := true, downward := .characters }
  match operandFault? 0 true false ' ' text with
  | some reason => fault reason
  | none =>
    match Regex.read dialect text with
    | .ok r => return r
    | .error "Unmatched ( or \\(" => fault "missing ')'"
    | .error "Invalid content of \\\x7b\\\x7d" => fault "bad interval expression"
    | .error _ => fault "bad class -- [], [^] or ["

end ProductLine.Shell.Record
