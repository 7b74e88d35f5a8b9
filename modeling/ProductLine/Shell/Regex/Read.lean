/- # Reading regular expressions — from a text to a pattern

The faults have the wording of the C library.  An operator that has nothing
to repeat follows nothing, an opening parenthesis, a bar, or what takes up no
room; what becomes of it is up to the dialect.
-/
import ProductLine.Shell.Regex.Brackets

namespace ProductLine.Shell

/-- What is left to read, how many groups have begun and which have ended, and what there is to warn
of, the last one first. -/
structure RegexReader where
  rest : Chars
  groups : Nat := 0
  ended : List Nat := []
  depth : Nat := 0
  warnings : List Chars := []

abbrev ReadRegex := StateT RegexReader (Except String)

namespace RegexReader

/-! ## Repetitions -/

def isText : Regex → Bool
  | .empty | .char _ => true
  | .sequence r s => isText r && isText s
  | _ => false

/-- A pattern of a single part: a set, any character, or a text. -/
def isPart : Regex → Bool
  | .any | .set _ _ => true
  | .group _ r => isPart r
  | .sequence .empty r => isPart r
  | r => isText r

/-- A repetition within bounds that are kept by parts: of a single part that has to occur twice or
more, just so many; of anything else, one at least. -/
def timesByParts (least : Nat) (most : Option Nat) (r : Regex) : Regex :=
  if least ≤ 1 then .times least most r
  else if isPart r then .times least (some least) r
  else .times 1 most r

/-- The repetition operator at the front, if there is one: its bounds, and what follows. -/
def repeat? (d : RegexDialect) (text : Chars) :
    Except String (Option ((Nat × Option Nat) × Chars)) :=
  match d.operator? text with
  | none => .ok none
  | some ('*', rest) => .ok (some ((0, none), rest))
  | some ('+', rest) => .ok (some ((1, none), rest))
  | some ('?', rest) => .ok (some ((0, some 1), rest))
  | some (_, rest) =>
    match d.bounds rest with
    | .ok found => .ok (some found)
    | .error fault => if fault.isText && d.braceIsText then .ok none else .error fault.message

/-- An operator at the front may not follow another one. -/
def piles (d : RegexDialect) (text : Chars) : Bool :=
  !d.stacking && (d.operator? text).any fun (sign, _) => sign == '*' || sign == '\x7b'

def nothingToRepeat : String := "Invalid preceding regular expression"

/-- Applies the repetition operators that follow an item. -/
def readRepeats (d : RegexDialect) : (fuel : Nat) → Regex → ReadRegex Regex
  | 0, item => return item
  | fuel + 1, item => do
    let r ← get
    match repeat? d r.rest with
    | .error fault => throw fault
    | .ok none => return item
    | .ok (some ((least, most), rest)) =>
      set { r with rest := rest }
      if piles d rest then throw nothingToRepeat
      readRepeats d fuel (if d.codes then timesByParts least most item else .times least most item)

/-! ## Items -/

def endsAlternative (d : RegexDialect) (r : RegexReader) : Bool :=
  match d.extended, r.rest with
  | _, [] => true
  | true, '|' :: _ => true
  | true, ')' :: _ => 0 < r.depth
  | false, '\\' :: '|' :: _ => true
  | false, '\\' :: ')' :: _ => true
  | _, _ => false

/-- The item that a character stands for after a backslash. -/
def escapedItem (d : RegexDialect) (c : Char) : Regex :=
  match c with
  | 'w' => .set false ('_' :: asciiChars.filter Char.isAlphanum)
  | 'W' => .set true ('_' :: asciiChars.filter Char.isAlphanum)
  | 's' => .set false (asciiChars.filter Chars.isSpace)
  | 'S' => .set true (asciiChars.filter Chars.isSpace)
  | 'b' => .wordEdge true true
  | '<' => .wordEdge true false
  | '>' => .wordEdge false true
  | 'B' => .insideWord
  | '\'' => .textEnd
  | '\x60' => .textStart
  | _ => .char (if d.escapes then (controlChar? c).getD c else c)

def isEdge : Regex → Bool
  | .lineStart | .lineEnd | .textStart | .textEnd | .wordEdge _ _ | .insideWord => true
  | _ => false

/-- Reads the item behind a backslash; `group` reads what stands in parentheses. -/
def readEscaped (d : RegexDialect) (group : ReadRegex Regex) : ReadRegex Regex := do
  let r ← get
  match r.rest with
  | [] => if d.codes then return .char '\\' else throw "Trailing backslash"
  | c :: rest =>
    let (coded, behind) := codedChar c rest
    set { r with rest := if d.codes then behind else rest }
    if d.codes then return .char coded
    else if !d.extended && c == '(' then group
    else if c.isDigit && c != '0' then
      let index := c.toNat - '0'.toNat
      if r.ended.contains index then return .back index else throw "Invalid back reference"
    else return escapedItem d c

/-- Reads the item that begins with a character, which has been read; `group` reads what stands in
parentheses, and `isFirst` says that an alternative begins here. -/
def readItem (d : RegexDialect) (group : ReadRegex Regex) (isFirst : Bool) (c : Char) :
    ReadRegex Regex := do
  let r ← get
  match c with
  | '.' => return .any
  | '[' =>
    match d.brackets r.rest with
    | .error fault => throw fault
    | .ok (found, rest) =>
      set { r with rest := rest }
      return found
  | '^' => return if d.extended || isFirst then .lineStart else .char '^'
  | '$' => return if d.extended || endsAlternative d r then .lineEnd else .char '$'
  | '\\' => readEscaped d group
  | '(' => if d.extended then group else return .char c
  | ')' =>
    if d.extended && !d.closingIsText then throw "Unmatched ) or \\)" else return .char c
  | _ => return .char c

/-- What an alternative has begun with: nothing, only what takes up no room, or more. -/
inductive Front where
  | nothing
  | edges
  | more
deriving DecidableEq

/-- Reads an operator that has nothing to repeat, if there is one: gives the item that it stands for,
or none if it is skipped. -/
def readStranded (d : RegexDialect) (front : Front) : ReadRegex (Option (Option Regex)) := do
  let r ← get
  match d.operator? r.rest with
  | none => return none
  | some (sign, rest) =>
    let isBrace := sign == '\x7b'
    let itself : RegexReader := { r with rest := rest }
    match if isBrace then d.strandedBounds else d.stranded with
    | .fault => throw nothingToRepeat
    | .character =>
      set itself
      return some (some (.char sign))
    | .skipped =>
      let warned (shown : Chars) : List Chars :=
        if front = .more then r.warnings
        else (shown ++ " at start of expression".toList) :: r.warnings
      if isBrace then
        match d.bounds rest with
        | .ok (_, behind) =>
          set { r with rest := behind, warnings := warned "\x7b...\x7d".toList }
          return some none
        | .error _ =>
          set itself
          return some (some (.char sign))
      else
        set { r with rest := rest, warnings := warned [sign] }
        return some none

def readItems (d : RegexDialect) (group : ReadRegex Regex) :
    (fuel : Nat) → Front → (sofar : Regex) → ReadRegex Regex
  | 0, _, sofar => return sofar
  | fuel + 1, front, sofar => do
    let r ← get
    let whole (item : Regex) : ReadRegex Regex := do
      let item ← readRepeats d (r.rest.length + 1) item
      readItems d group fuel .more (.sequence sofar item)
    if endsAlternative d r then return sofar
    else
      match ← readStranded d front with
      | some (some item) => whole item
      | some none => readItems d group fuel front sofar
      | none =>
        match r.rest with
        | [] => return sofar
        | c :: rest =>
          set { r with rest := rest }
          let item ← readItem d group (front = .nothing) c
          if isEdge item && !d.codes then
            readItems d group fuel (if front = .more then .more else .edges) (.sequence sofar item)
          else whole item

/-! ## Alternatives -/

/-- Skips the sign between two alternatives, if one follows. -/
def skipBar (d : RegexDialect) : ReadRegex Bool := do
  let r ← get
  match d.extended, r.rest with
  | true, '|' :: rest | false, '\\' :: '|' :: rest =>
    set { r with rest := rest }
    return true
  | _, _ => return false

/-- Reads alternatives; `fuel` bounds their number and how deep groups are nested. -/
def readAlternatives (d : RegexDialect) : (fuel : Nat) → ReadRegex Regex
  | 0 => throw "Regular expression too big"
  | fuel + 1 => do
    let group : ReadRegex Regex := do
      let index := (← get).groups + 1
      modify fun r => { r with groups := index, depth := r.depth + 1 }
      let body ← readAlternatives d fuel
      let r ← get
      match d.extended, r.rest with
      | true, ')' :: rest | false, '\\' :: ')' :: rest =>
        set { r with rest := rest, ended := index :: r.ended, depth := r.depth - 1 }
        return .group index body
      | _, _ => throw "Unmatched ( or \\("
    let first ← readItems d group ((← get).rest.length + 1) .nothing .empty
    if ← skipBar d then
      let second ← readAlternatives d fuel
      return .either first second
    else return first

end RegexReader

/-- The regular expression that a text spells and what there is to warn of, or the fault in words. -/
def Regex.readNoting (d : RegexDialect) (text : Chars) : Except String (Regex × List Chars) :=
  match (RegexReader.readAlternatives d (text.length + 2)).run { rest := text } with
  | .error fault => .error fault
  | .ok (r, reader) =>
    if reader.rest.isEmpty then .ok (r, reader.warnings.reverse) else .error "Unmatched ) or \\)"

/-- The regular expression that a text spells, or the fault in words. -/
def Regex.read (d : RegexDialect) (text : Chars) : Except String Regex :=
  (Regex.readNoting d text).map Prod.fst

/-- The regular expression that matches a text as it is. -/
def Regex.ofText (text : Chars) : Regex :=
  text.foldr (fun c r => .sequence (.char c) r) .empty

def Regex.groupCount : Regex → Nat
  | .group _ r => r.groupCount + 1
  | .sequence r s | .either r s => r.groupCount + s.groupCount
  | .times _ _ r => r.groupCount
  | _ => 0

end ProductLine.Shell
