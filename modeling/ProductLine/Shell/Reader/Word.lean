/- # Reading words — quotation, parameters, and what is put in place of commands

Where a piece of a word stands decides how its characters are read: outside
of quotation marks, inside of them, in a document, in the braces of a
parameter or in arithmetic.
-/
import ProductLine.Shell.Format
import ProductLine.Shell.Glob
import ProductLine.Shell.Reader.Basic

namespace ProductLine.Shell

/-- Where the pieces of a word are being read.  In braces they end at one of the `stops`, in a
document at the line that is its delimiter if there is one, and a bracket that opens a choice is
counted in `depth`. -/
inductive Place where
  | bare
  | expression
  | group
  | quotes
  | document (delimiter : Option Chars) (stripsTabs : Bool)
  | braces (quoted : Bool) (stops : Chars)
  | arithmetic (depth : Nat)
deriving DecidableEq

namespace Place

def isQuoted : Place → Bool
  | bare | expression | group => false
  | braces quoted _ => quoted
  | _ => true

def isDocument : Place → Bool
  | document .. => true
  | _ => false

end Place

namespace Read

/-- What ended a run of pieces: a character that was dropped, or something that stays. -/
abbrev Pieces := Word × Option Char

/-- The name of a parameter in braces, and whether its length is asked for.  Nothing comes of a
name that there cannot be. -/
def bracedName : Read (Option Chars × Bool) := do
  match ← peek with
  | none => return (none, false)
  | some c =>
    let fuel := (← get).rest.length
    if Chars.isNameStart c then return (some (← takeWhile Chars.isNameChar fuel), false)
    else if c.isDigit then return (some (← takeWhile Char.isDigit fuel), false)
    else if c == '#' then
      let _ ← rawNext
      match ← peek with
      | none => return (some ['#'], false)
      | some d =>
        if Chars.isNameStart d || d.isDigit then
          return (some (← takeWhile Chars.isNameChar fuel), true)
        else if d != '\x7d' && isSpecialParameter d then
          let before ← get
          let _ ← rawNext
          if (← peek) == some '\x7d' then return (some [d], true)
          else
            set before
            return (some ['#'], false)
        else return (some ['#'], false)
    else if c != '\x7d' && isSpecialParameter c then
      let _ ← rawNext
      return (some [c], false)
    else return (none, false)

/-- The operator that falls back on something else, if the character is one. -/
def fallback? : Char → Option Fallback
  | '-' => some .value
  | '=' => some .assigned
  | '?' => some .complaint
  | '+' => some .alternative
  | _ => none

/-- Skips what is left in the braces of a parameter that is malformed. -/
def skipBraces (inner : Place → Read Pieces) (quoted : Bool) : Read Unit := do
  let _ ← inner (.braces quoted ['\x7d'])

/-- What is done with a parameter in the extended dialect, given the operator, which has been
read. -/
def extendedUsage (inner : Place → Read Pieces) (quoted : Bool) (op : Char) : Read Usage := do
  match op with
  | ':' =>
    let (offset, stop) ← inner (.braces true [':', '\x7d'])
    if stop == some ':' then
      let (length, _) ← inner (.braces true ['\x7d'])
      return .slice offset (some length)
    else return .slice offset none
  | '/' =>
    let all ← skip '/'
    let anchor : Anchor ← do
      if all then pure .anywhere
      else if ← skip '#' then pure .front
      else if ← skip '%' then pure .back
      else pure .anywhere
    let front : Word ← if ← skipIf all '/' then pure [.text true ['/']] else pure []
    let (pattern, stop) ← inner (.braces false ['/', '\x7d'])
    let pattern := front ++ pattern
    if stop == some '/' then
      let (replacement, _) ← inner (.braces false ['\x7d'])
      return .replace all anchor pattern replacement
    else return .replace all anchor pattern []
  | '^' | ',' =>
    let all ← skip op
    let (pattern, _) ← inner (.braces false ['\x7d'])
    return .recase (op == '^') all pattern
  | '@' =>
    let rest := (← get).rest
    skipBraces inner quoted
    match rest with
    | letter :: '\x7d' :: _ =>
      return .transform letter
    | _ => return .malformed []
  | _ =>
    skipBraces inner quoted
    return .malformed []

/-- What is done with a parameter in braces, whose name has been read. -/
def usage (inner : Place → Read Pieces) (quoted : Bool) : Read Usage := do
  let extended := (← get).extended
  match ← next with
  | none => faultOpened (if quoted && !extended then .unterminated '"' else .unended "'\x7d'")
  | some '\x7d' => return .value
  | some ':' =>
    match (← peek).bind fallback? with
    | some kind =>
      let _ ← rawNext
      let (word, _) ← inner (.braces quoted ['\x7d'])
      return .fallback kind true word
    | none =>
      if ← skipIf (!extended) '\x7d' then return .value
      else if extended then extendedUsage inner quoted ':'
      else
        skipBraces inner quoted
        return .malformed []
  | some c =>
    match fallback? c with
    | some kind =>
      let (word, _) ← inner (.braces quoted ['\x7d'])
      return .fallback kind false word
    | none =>
      if c == '%' || c == '#' then
        let longest ← skip c
        let (pattern, _) ← inner (.braces false ['\x7d'])
        return .trim (c == '#') longest pattern
      else if extended then extendedUsage inner quoted c
      else
        modify fun r => { r with rest := c :: r.rest }
        skipBraces inner quoted
        return .malformed []

/-- A parameter whose value names another one, or the names or keys that there are, behind the name
and the index in braces. -/
def indirectPiece (inner : Place → Read Pieces) (quoted : Bool) (name : Chars)
    (index : Option Word) : Read Piece := do
  let all := (index.bind fun w => w.mapM fun
    | .text _ s => some s
    | _ => none).map List.flatten
  match all, (← get).rest with
  | none, '*' :: '\x7d' :: _ | none, '@' :: '\x7d' :: _ =>
    let letter := (← rawNext).getD '@'
    let _ ← rawNext
    return .parameter quoted name (some [.text true [letter]]) .names
  | all, _ =>
    let keys := all == some ['@'] || all == some ['*']
    match ← usage inner quoted with
    | .malformed spelling => return .parameter quoted name index (.malformed spelling)
    | .value => return .parameter quoted name index (if keys then .keys else .indirect .value)
    | use => return .parameter quoted name index (.indirect use)

/-- A parameter in braces, the first of which has been read; a malformed one gets its spelling
afterwards. -/
def bracedPiece (inner : Place → Read Pieces) (quoted : Bool) : Read Piece := do
  let extended := (← get).extended
  let before ← get
  let isIndirect := match before.rest with
    | '!' :: '#' :: '\x7d' :: _ => true
    | '!' :: c :: _ => Chars.isNameChar c
    | _ => false
  let indirect ← skipIf (extended && isIndirect) '!'
  let (name, length) ← bracedName
  match name with
  | none =>
    skipBraces inner quoted
    return .parameter quoted [] none (.malformed [])
  | some name =>
    let index ← if ← skipIf (extended && Chars.isName name) '[' then
        let (index, _) ← inner (.braces true [']'])
        pure (some index)
      else pure none
    if length then
      let isWhole := (← peek) == some '\x7d'
      skipBraces inner quoted
      return .parameter quoted name index (if isWhole then .size else .malformed [])
    else if indirect then indirectPiece inner quoted name index
    else return .parameter quoted name index (← usage inner quoted)

/-- A parameter in braces, the first of which has been read. -/
def braced (inner : Place → Read Pieces) (quoted : Bool) : Read Piece := do
  let before ← get
  let piece ← opening (bracedPiece inner quoted)
  let after ← get
  match piece with
  | .parameter quoted name index (.malformed _) =>
    let spelling := before.rest.take (before.rest.length - after.rest.length)
    return .parameter quoted name index (.malformed spelling)
  | piece => return piece

/-- The text of a command between backquotes, of which the first has been read.  A backslash
before a character that is special in quotation marks is dropped. -/
def backquoted (quoted : Bool) : (fuel : Nat) → Read Chars
  | 0 => return []
  | fuel + 1 => do
    match ← rawNext with
    | none => faultOpened (.unterminated backquote)
    | some '\x60' => return []
    | some '\\' =>
      match ← rawNext with
      | none => faultOpened (.unterminated backquote)
      | some '\n' => backquoted quoted fuel
      | some c =>
        let dropped := c == '\\' || c == backquote || c == '$' || (quoted && c == '"')
        let more ← backquoted quoted fuel
        return if dropped then c :: more else '\\' :: c :: more
    | some c => return c :: (← backquoted quoted fuel)

/-- The commands of a text that stands between backquotes. -/
def commandsOf (nested : Nested) (text : Chars) : Read (Option Command) := do
  let outer ← get
  set { outer with rest := text, line := 1, pushed := none, pending := [] }
  let body ← nested.list .optional
  let inside ← get
  set { outer with documents := inside.documents, nextDocument := inside.nextDocument }
  return body

def commandsToClosing (nested : Nested) : Read (Option Command) := do
  let outer ← get
  set { outer with pushed := none, pending := [] }
  let body ← nested.list .optional
  let inside ← get
  match inside.pushed with
  | some .closing =>
    set { inside with pushed := outer.pushed, pending := outer.pending }
    return body
  | other => fault ((other.getD .endOfText).fault (some "\")\""))

/-- The commands up to the closing parenthesis; in the extended dialect it is the parenthesis that
is missed when the script ends before it. -/
def commandsToParenthesis (nested : Nested) : Read (Option Command) := do
  let r ← get
  match (commandsToClosing nested).run r with
  | .ok (body, after) =>
    set after
    return body
  | .error fault =>
    match fault.kind with
    | .endOfText _ => throw (if r.extended then { fault with kind := .unclosed } else fault)
    | _ => throw fault

/-- A text in which the escapes of the extended dialect are replaced, up to its quotation mark. -/
def ansiQuoted : (fuel : Nat) → Read Chars
  | 0 => return []
  | fuel + 1 => do
    match ← rawNext with
    | none => faultOpened (.unterminated '\'')
    | some '\'' => return []
    | some '\\' =>
      let r ← get
      match Dialect.bash.formatEscapes.decode r.rest with
      | none => return []
      | some (front, rest) =>
        set { r with rest := rest }
        return front ++ (← ansiQuoted fuel)
    | some c => return c :: (← ansiQuoted fuel)

def dollar (nested : Nested) (inner : Place → Read Pieces) (quoted : Bool) : Read Piece := do
  let r ← get
  let fuel := r.rest.length
  match ← peek with
  | some '(' =>
    let _ ← rawNext
    let before ← get
    if ← skip '(' then
      let arithmetic : Read Piece := do
        let (body, _) ← opening (inner (.arithmetic 0))
        return .arithmetic quoted body
      if r.extended then
        match arithmetic.run (← get) with
        | .ok (piece, after) =>
          set after
          return piece
        | .error fault =>
          if fault.kind = .unended "'))'" then throw { fault with kind := .unended "')'" }
          set before
          return .output quoted false (← commandsToParenthesis nested)
      else arithmetic
    else return .output quoted false (← commandsToParenthesis nested)
  | some '\x7b' =>
    let _ ← rawNext
    braced inner quoted
  | some '\'' =>
    if r.extended && !quoted then
      let _ ← rawNext
      return .text true (← opening (ansiQuoted fuel))
    else return .text quoted ['$']
  | some c =>
    if Chars.isNameStart c then
      return .parameter quoted (← takeWhile Chars.isNameChar fuel) none .value
    else if isSpecialParameter c then
      let _ ← rawNext
      return .parameter quoted [c] none .value
    else return .text quoted ['$']
  | none => return .text quoted ['$']

/-- What a backslash, which has been read, makes of the next character. -/
def escaped (place : Place) : Read Piece := do
  match ← rawNext with
  | none => return .text true ['\\']
  | some c =>
    let special := c == '\\' || c == backquote || c == '$' ||
      match place with
      | .quotes => c == '"'
      | .braces true stops => c == '"' || c == '\x7d' || stops.contains c
      | .bare | .expression | .group | .braces false _ => true
      | .document .. | .arithmetic _ => false
    return .text true (if special then [c] else ['\\', c])

def isMany : Piece → Bool
  | .parameter _ _ (some [.text _ ['@']]) _ => true
  | .parameter _ name _ _ => name == ['@']
  | _ => false

/-- Quotation marks around a word make no field if there is nothing to put into it: in the extended
dialect if the word has parameters one by one, in the basic one only if it is just that. -/
def mayVanish (extended : Bool) (w : Word) : Bool :=
  match w with
  | [.parameter _ ['@'] none .value] => true
  | w => extended && w.any isMany

/-- A line without the tabs in front, if they are to be stripped. -/
def stripTabs (strips : Bool) (line : Chars) : Chars :=
  if strips then line.dropWhile (· == '\t') else line

/-- What comes after these pieces, the last one first, is the front of a line. -/
def beginsLine : Word → Bool
  | [] => true
  | .text _ s :: _ => s.getLast? == some '\n'
  | _ => false

/-- At the front of a line of a document, drops tabs that are to be stripped; if the line is the
delimiter, drops it and says so. -/
def endsDocument : Place → Read Bool
  | .document (some delimiter) strips => do
    let r ← get
    let raw := r.rest.takeWhile (· != '\n')
    let line := stripTabs strips raw
    if line == delimiter then
      let behind := r.rest.drop raw.length
      set { r with rest := behind.drop 1, line := if behind.isEmpty then r.line else r.line + 1 }
      return true
    else
      set { r with rest := r.rest.drop (raw.length - line.length) }
      return false
  | _ => return false

def pieces (nested : Nested) : (fuel : Nat) → Place → (sofar : Word) → Read Pieces
  | 0, _, sofar => return (sofar.reverse, none)
  | fuel + 1, place, sofar => do
    let quoted := place.isQuoted
    let inner (place : Place) : Read Pieces := do
      let (w, stop) ← pieces nested fuel place []
      return (Word.merged w, stop)
    let onward (place : Place) (more : Word) : Read Pieces :=
      pieces nested fuel place (more.reverse ++ sofar)
    let finish (stop : Option Char) : Read Pieces := return (sofar.reverse, stop)
    let ended ← if beginsLine sofar then endsDocument place else pure false
    let following ← if ended then pure none else peek
    match following with
    | none =>
      match place with
      | .bare | .expression | .document .. => finish none
      | .quotes => faultOpened (.unterminated '"')
      | .braces true _ =>
        let extended := (← get).extended
        faultOpened (if extended then .unended "'\x7d'" else .unterminated '"')
      | .braces false _ => faultOpened (.unended "'\x7d'")
      | .group => faultOpened (.unterminated ')')
      | .arithmetic _ => faultOpened (.unended "'))'")
    | some c =>
      let isEnd := match place with
        | .bare => endsWord c
        | .expression => " \t\n;&<>".toList.contains c
        | _ => false
      if isEnd then finish none
      else
        let _ ← rawNext
        match place, c with
        | .quotes, '"' | .group, ')' => finish (some c)
        | .braces q stops, _ =>
          if stops.contains c then finish (some c)
          else if c == '[' && stops == [']'] then
            let (more, _) ← inner place
            onward place (.text true [c] :: more ++ [.text true stops])
          else if q && c == '"' then
            let (more, _) ← opening (inner .quotes)
            onward place more
          else braceless nested inner onward place c
        | .arithmetic depth, '(' => onward (.arithmetic (depth + 1)) [.text true [c]]
        | .arithmetic 0, ')' =>
          if ← skip ')' then finish (some c) else onward place [.text true [c]]
        | .arithmetic (depth + 1), ')' => onward (.arithmetic depth) [.text true [c]]
        | _, _ =>
          if quoted && c == '"' then
            onward place (if (← get).extended && !place.isDocument then [] else [.text true [c]])
          else braceless nested inner onward place c
where
  /-- Goes on after a character that means the same at all places. -/
  braceless (nested : Nested) (inner : Place → Read Pieces)
      (onward : Place → Word → Read Pieces) (place : Place) (c : Char) : Read Pieces := do
    let quoted := place.isQuoted
    match c with
    | '$' =>
      let r ← get
      if r.extended && !quoted && r.rest.head? == some '"' then onward place []
      else onward place [← dollar nested inner quoted]
    | '\x60' =>
      let text ← opening (backquoted quoted ((← get).rest.length + 1))
      onward place [.output quoted true (← commandsOf nested text)]
    | '\\' => onward place [← escaped place]
    | '\'' =>
      if quoted then onward place [.text true [c]]
      else onward place [.text true (← opening (singleQuoted ((← get).rest.length + 1)))]
    | '"' =>
      let (more, _) ← opening (inner .quotes)
      onward place (if mayVanish (← get).extended more then more else .text true [] :: more)
    | _ =>
      let r ← get
      let beginsGroup := r.groups && !quoted && (groupKind? c).isSome && r.rest.head? == some '('
      if beginsGroup then
        let _ ← rawNext
        let (more, _) ← opening (inner .group)
        onward place ([.text false [c, '(']] ++ more ++ [.text false [')']])
      else onward place [.text quoted [c]]

def word (nested : Nested) (place : Place) : Read Word := do
  let (w, _) ← pieces nested ((← get).rest.length + 1) place []
  return Word.merged w

/-! ## Documents -/

def documentText (d : PendingDocument) : (fuel : Nat) → Read Chars
  | 0 => return []
  | fuel + 1 => do
    let r ← get
    if r.rest.isEmpty then
      let missing : UnendedDocument := ⟨d.line, r.line - 1, d.delimiter⟩
      set { r with unended := r.unended ++ [missing] }
      return []
    else
      let raw := r.rest.takeWhile (· != '\n')
      let ended := raw.length < r.rest.length
      set { r with
        rest := r.rest.drop (raw.length + 1)
        line := if ended then r.line + 1 else r.line }
      let line := stripTabs d.stripsTabs raw
      if line == d.delimiter then return []
      else return line ++ (if ended then ['\n'] else []) ++ (← documentText d fuel)

/-- The body of a document.  In the basic dialect it ends where its delimiter stands behind whatever
is nested in it, in the extended one where the delimiter stands first. -/
def documentBody (nested : Nested) (d : PendingDocument) : Read Word := do
  if !d.quoted && !(← get).extended then
    word nested (.document (some d.delimiter) d.stripsTabs)
  else
  let start := (← get).line
  let text ← documentText { d with line := max 1 (start - 1) } ((← get).rest.length + 1)
  if d.quoted then return [.text true text]
  else
    let outer ← get
    set { outer with rest := text, line := start, pushed := none, pending := [] }
    let body ← word nested (.document none false)
    let inside ← get
    set { outer with documents := inside.documents, nextDocument := inside.nextDocument }
    return body

/-- Reads the bodies of the documents that begin here. -/
def readDocuments (nested : Nested) : List PendingDocument → Read Unit
  | [] => return
  | d :: rest => do
    let body ← documentBody nested d
    modify fun r => { r with documents := (d.number, body) :: r.documents }
    readDocuments nested rest

/-- Reads the bodies of all documents that wait for the next line. -/
def readPending (nested : Nested) : Read Unit := do
  let pending := (← get).pending
  modify fun r => { r with pending := [] }
  readDocuments nested pending

end Read

end ProductLine.Shell
