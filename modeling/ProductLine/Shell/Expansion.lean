/- # Expansion — from words to the texts that a command gets

The pieces of a word become parts: texts that are quoted or not, and that
are or are not split into fields.  Fields are then cut at the separators,
and those with wild characters are replaced by the names that they match.
-/
import ProductLine.Shell.Glob
import ProductLine.Shell.Session

namespace ProductLine.Shell

/-- What has come of the pieces of a word.  A quoted text makes a field even if it is empty; at a
`boundary` one field ends, and where there is `nothing` an empty field is dropped, unless there are
also `quotes` around nothing. -/
inductive Part where
  | text (quoted splits : Bool) (s : Chars)
  | boundary
  | nothing
  | quotes

namespace Part

/-- The characters of parts, with a blank between fields. -/
def joined (parts : List Part) : Chars :=
  parts.flatMap fun
    | .text _ _ s => s
    | .boundary => [' ']
    | .nothing | .quotes => []

def marked (parts : List Part) : List Marked :=
  parts.flatMap fun
    | .text quoted _ s => s.map fun c => (quoted, c)
    | .boundary => [(true, ' ')]
    | .nothing | .quotes => []

def quote (parts : List Part) : List Part :=
  parts.map fun
    | .text _ _ s => .text true false s
    | p => p

end Part

/-! ## Fields -/

/-- A field that is being made, and the fields before it, the latest first.  `closed` says that
the last field was ended by a blank, so a separator that follows belongs to that end. -/
structure FieldState where
  chars : List Marked := []
  begun : Bool := false
  dropsEmpty : Bool := false
  stays : Bool := false
  closed : Bool := false
  fields : List (List Marked) := []

namespace FieldState

def finish (s : FieldState) : FieldState :=
  if s.begun && !(s.chars.isEmpty && s.dropsEmpty && !s.stays) then
    { fields := s.chars.reverse :: s.fields }
  else { fields := s.fields, closed := s.closed }

/-- Takes in a character at which fields may be split. -/
def addSplitting (ifs : Chars) (s : FieldState) (c : Char) : FieldState :=
  if !ifs.contains c then { s with chars := (false, c) :: s.chars, begun := true, closed := false }
  else if c == ' ' || c == '\t' || c == '\n' then
    if s.begun then { s.finish with closed := true } else s
  else if s.begun then s.finish
  else if s.closed then { s with closed := false }
  else { s with fields := [] :: s.fields }

def add (ifs : Chars) (s : FieldState) : Part → FieldState
  | .boundary => { s.finish with closed := false }
  | .nothing => { s with dropsEmpty := true }
  | .quotes => { s with stays := true, begun := true, closed := false }
  | .text quoted splits text =>
    if splits then text.foldl (addSplitting ifs) s
    else if text.isEmpty && !quoted then s
    else
      { s with
        chars := (text.map fun c => (quoted, c)).reverse ++ s.chars
        begun := true, closed := false }

end FieldState

def splitFields (ifs : Chars) (parts : List Part) : List (List Marked) :=
  (parts.foldl (FieldState.add ifs) {}).finish.fields.reverse

/-! ## Names of files -/

def splitSlashes : List Marked → List (List Marked)
  | [] => [[]]
  | (q, c) :: rest =>
    if c == '/' then [] :: splitSlashes rest
    else
      match splitSlashes rest with
      | first :: others => ((q, c) :: first) :: others
      | [] => [[(q, c)]]

/-- How names of files are matched: by which rules, whether two stars stand for all directories
below, whether the names of the directory itself and
the one above count, whether a dot in front is like any other character, and whether a field is
dropped that matches nothing. -/
structure NameRules where
  glob : GlobRules := {}
  descends : Bool := false
  withDots : Bool := false
  showsHidden : Bool := false
  dropsUnmatched : Bool := false

/-- The names in a directory that match a pattern.  A dot in front has to be matched by a dot,
unless hidden names are shown. -/
def matchingNames (rules : NameRules) (files : FileTree) (place : Location)
    (pattern : List Marked) : List Chars :=
  let glob := Glob.ofMarked rules.glob pattern
  let names := (files.namesIn place).map Chars.ofString
  let dots := if place.isEmpty || !rules.withDots then [] else [['.'], ['.', '.']]
  let hidden := rules.showsHidden || (pattern.head?.map Prod.snd) == some '.'
  Chars.sort ((names ++ dots).eraseDups.filter fun name =>
    (name.head? != some '.' || hidden) && glob.matches name)

/-- How deep the directories may be that two stars stand for. -/
def maxDescent : Nat := 100

/-- The paths of all that is below a directory, with their places; `front` leads to it, and `depth`
bounds the directories. -/
def pathsBelow (rules : NameRules) (files : FileTree) :
    (depth : Nat) → (front : Chars) → Location → List (Chars × Location)
  | 0, _, _ => []
  | depth + 1, front, place =>
    let names := Chars.sort ((files.namesIn place).map Chars.ofString)
    let names := names.filter fun name => rules.showsHidden || name.head? != some '.'
    names.flatMap fun name =>
      let inside := FileTree.follow place (Chars.toName name)
      let path := front ++ name
      match files.node? inside with
      | some .directory => (path, inside) :: pathsBelow rules files depth (path ++ ['/']) inside
      | _ => [(path, inside)]

def matchingPaths (rules : NameRules) (files : FileTree) (front : Chars) (place : Location) :
    List (List Marked) → List Chars
  | [] => [front]
  | [[]] => if files.node? place == some .directory then [front] else []
  | part :: rest =>
    let text := part.map Prod.snd
    if text.isEmpty then matchingPaths rules files (front ++ ['/']) place rest
    else if rules.descends && part == [(false, '*'), (false, '*')] then
      let found := pathsBelow rules files maxDescent front place
      match rest with
      | [] => (if front.isEmpty then [] else [front]) ++ found.map Prod.fst
      | rest =>
        let directories := found.filter fun entry => files.node? entry.2 == some .directory
        let here := if front.isEmpty && rest == [[]] then [] else
          matchingPaths rules files front place rest
        here ++ directories.flatMap fun (path, inside) =>
          matchingPaths rules files (path ++ ['/']) inside rest
    else
      let names := if (Glob.ofMarked rules.glob part).isWild then
          matchingNames rules files place part
        else [text]
      names.flatMap fun name =>
        let place := FileTree.follow place (Chars.toName name)
        match files.node? place, rest with
        | none, _ => []
        | some _, [] => [front ++ name]
        | some _, rest =>
          match files.resolve? place with
          | some (place, .directory) =>
            matchingPaths rules files (front ++ name ++ ['/']) place rest
          | _ => []

/-- Characters without quotation that may be wild: a bracket is so only where there is a closing one
as well. -/
def mayBeWild (plain : Chars) : Bool :=
  plain.any (fun c => c == '*' || c == '?' || c == '(') || plain.contains '[' && plain.contains ']'

def plainChars (field : List Marked) : Chars :=
  field.filterMap fun (quoted, c) => if quoted then none else some c

/-- The names that a field stands for: those it matches, if it has wild characters and matches
any, or itself. -/
def fieldNames (rules : NameRules) (files : FileTree) (directory : Location)
    (field : List Marked) : List Chars :=
  let text := field.map Prod.snd
  if !mayBeWild (plainChars field) then [text]
  else if !(Glob.ofMarked rules.glob field).isWild then [text]
  else
    let parts := splitSlashes field
    let found := match parts with
      | [] :: rest => matchingPaths rules files ['/'] [] rest
      | parts => matchingPaths rules files [] directory parts
    if found.isEmpty && !rules.dropsUnmatched then [text]
    else if rules.descends then Chars.sort found
    else found

/-! ## Braces -/

/-- A part of a word as braces see it: a character without quotation, or any other piece. -/
inductive BraceItem where
  | char (c : Char)
  | piece (p : Piece)

namespace BraceItem

def ofWord (w : Word) : List BraceItem :=
  w.flatMap fun
    | .text false s => s.map char
    | p => [piece p]

def toWord (items : List BraceItem) : Word :=
  Word.merged (items.map fun
    | char c => .text false [c]
    | piece p => p)

/-- The alternatives up to the closing brace, and what follows; `depth` counts braces inside. -/
def alternatives : List BraceItem → (depth : Nat) → (present : List BraceItem) →
    (before : List (List BraceItem)) → Option (List (List BraceItem) × List BraceItem)
  | [], _, _, _ => none
  | item :: rest, depth, present, before =>
    match item with
    | char '\x7d' =>
      if depth = 0 then some ((present.reverse :: before).reverse, rest)
      else alternatives rest (depth - 1) (item :: present) before
    | char '\x7b' => alternatives rest (depth + 1) (item :: present) before
    | char ',' =>
      if depth = 0 then alternatives rest 0 [] (present.reverse :: before)
      else alternatives rest depth (item :: present) before
    | _ => alternatives rest depth (item :: present) before

def text? (items : List BraceItem) : Option Chars :=
  items.mapM fun
    | char c => some c
    | piece _ => none

def maxNumbers : Nat := 2000000

def numbers (first last step : Int) : List Int :=
  let step := if step = 0 then 1 else step.natAbs
  let count := (last - first).natAbs / step + 1
  (List.range (min count maxNumbers)).map fun (i : Nat) =>
    if first ≤ last then first + i * step else first - i * step

def range? (text : Chars) : Option (List Chars) :=
  let parts := (String.ofList text).splitOn ".."
  let make (first last : String) (step : Int) : Option (List Chars) :=
    match Chars.toInt? first.toList, Chars.toInt? last.toList with
    | some a, some b =>
      let isPadded (s : String) : Bool :=
        let digits := s.toList.dropWhile (· == '-')
        digits.head? == some '0' && 1 < digits.length
      let width := if isPadded first || isPadded last then max first.length last.length else 0
      some ((numbers a b step).map fun n =>
        let digits := Chars.ofNat n.natAbs
        let sign := if n < 0 then ['-'] else []
        sign ++ List.replicate (width - sign.length - digits.length) '0' ++ digits)
    | _, _ =>
      match first.toList, last.toList with
      | [a], [b] =>
        if a.isAlpha && b.isAlpha then
          some ((numbers a.toNat b.toNat step).map fun n => [Char.ofNat n.toNat])
        else none
      | _, _ => none
  match parts with
  | [a, b] => make a b 1
  | [a, b, step] => (Chars.toInt? step.toList).bind fun step => make a b step
  | _ => none

def expand : (fuel : Nat) → List BraceItem → List (List BraceItem)
  | 0, items => [items]
  | _, [] => [[]]
  | fuel + 1, char '\x7b' :: rest =>
    match alternatives rest 0 [] [] with
    | some ([single], after) =>
      match (text? single).bind range? with
      | some texts =>
        let behind := expand fuel after
        texts.flatMap fun text => behind.map fun tail => text.map char ++ tail
      | none =>
        let inside := expand fuel single
        let behind := expand fuel after
        inside.flatMap fun front =>
          behind.map fun tail => char '\x7b' :: front ++ char '\x7d' :: tail
    | some (many, after) =>
      let behind := expand fuel after
      many.flatMap fun one =>
        (expand fuel one).flatMap fun front => behind.map fun tail => front ++ tail
    | none => (expand fuel rest).map (char '\x7b' :: ·)
  | fuel + 1, item :: rest => (expand fuel rest).map (item :: ·)

end BraceItem

def braceWords (w : Word) : List Word :=
  let items := BraceItem.ofWord w
  let hasBrace := items.any fun
    | .char c => c == '\x7b'
    | _ => false
  if hasBrace then (BraceItem.expand (items.length + 1) items).map BraceItem.toWord else [w]

namespace Sh

/-! ## Patterns -/

/-- How patterns are read at present. -/
def globRules : Sh GlobRules := do
  let s ← session
  if s.switches.isEmpty then return {}
  else
    return {
      groups := s.switches.contains "extglob", foldsCase := s.switches.contains "nocasematch" }

/-- How names of files are matched at present. -/
def nameRules : Sh NameRules := do
  let s ← session
  let groups := s.switches.contains "extglob"
  return {
    glob := { groups := groups, foldsCase := s.switches.contains "nocaseglob" }
    descends := s.switches.contains "globstar"
    withDots := !s.extended
    showsHidden := s.switches.contains "dotglob"
    dropsUnmatched := s.switches.contains "nullglob" }

/-! ## Tildes -/

/-- The directory that a name after a tilde stands for. -/
def homeOf (name : Chars) : Sh (Option Chars) := do
  if name.isEmpty then return (← session).value? (str "HOME")
  else if (← isExtended) && name == ['+'] then return (← session).value? (str "PWD")
  else if name == str "root" then return some (str "/root")
  else return none

/-- The parts of a text that begins with a tilde; `stops` end the name after it. -/
def tildeParts (stops : Chars) (text : Chars) : Sh (Option (List Part)) := do
  match text with
  | '~' :: rest =>
    let name := rest.takeWhile fun c => !stops.contains c
    match ← homeOf name with
    | some home => return some [.text true false home, .text false false (rest.drop name.length)]
    | none => return none
  | _ => return none

/-- The parts of a text in an assignment, where a tilde may also follow a colon.  `isFront` says that
the value begins here, and `ends` that it ends with the text; otherwise the name after a last tilde
goes on and is none. -/
def colonTildes (ends : Bool) : (fuel : Nat) → (isFront : Bool) → Chars → Sh (List Part)
  | 0, _, text => return [.text false false text]
  | fuel + 1, isFront, text => do
    let front := text.takeWhile (· != ':')
    let behind := text.drop front.length
    let isWhole := ends || !behind.isEmpty || front.contains '/'
    let found ← if isFront && isWhole then tildeParts ['/', ':'] front else pure none
    let first := found.getD [.text false false front]
    match behind with
    | [] => return first
    | c :: rest => return first ++ .text false false [c] :: (← colonTildes ends fuel true rest)

/-- The parts of the pieces of a value in an assignment; `piece` gives those of other pieces than
text without quotation. -/
def valueParts (piece : Piece → Sh (List Part)) : (isFront : Bool) → Word → Sh (List Part)
  | _, [] => return []
  | isFront, .text false s :: rest => do
    let found ← if s.contains '~' then colonTildes rest.isEmpty (s.length + 1) isFront s
      else pure [Part.text false false s]
    return found ++ (← valueParts piece false rest)
  | _, p :: rest => do
    let found ← piece p
    return found ++ (← valueParts piece false rest)

/-! ## Parameters -/

/-- The status of a shell of the extended dialect that a fault in an expansion ends. -/
def expansionFaultStatus : Sh Nat := do
  let s ← session
  return if s.isChild || s.options.contains "errexit" then 1 else 127

def refuseUnset {α : Type} (name : Chars) : Sh α := do
  if ← isExtended then
    let isMark := name == ['!'] || name.length == 1 && name.all Char.isDigit
    warn ((if isMark then '$' :: name else name) ++ str ": unbound variable")
    exit (← expansionFaultStatus)
  else fail (name ++ str ": parameter not set")

def demanded (name : Chars) (value : Option Chars) : Sh Chars := do
  match value with
  | some value => return value
  | none =>
    if (← hasOption "nounset") && name != ['@'] && name != ['*'] then refuseUnset name
    else return []

/-- The values of the parameters in a text that the extended dialect keeps up by itself. -/
def ownNumbers (source : Chars) : Sh (List (Chars × Chars)) := do
  let s ← session
  let names := (source.splitOnP fun c => !Chars.isNameChar c).eraseDups
  let isOwn (name : Chars) : Bool :=
    name.any Char.isUpper && ((s.setting? name).isNone || name == str "SECONDS")
  let found ← (names.filter isOwn).mapM fun name => do
    return (← parameter? name).map fun value => (name, value)
  return found.filterMap fun own => own

/-- The value of arithmetic; what it assigns is assigned.  Complaints begin with the `subject`, if
there is one. -/
def arithmeticOn (subject : Chars) (source : Chars) : Sh Int := do
  spend (Machine.commandSteps + source.length)
  let s ← session
  let own ← if s.extended && source.any Char.isUpper then ownNumbers source else pure []
  let read (name : Chars) : Option Chars :=
    match splitItem? name with
    | some (name, key) =>
      match s.setting? name with
      | some { items := some items, .. } => items.get? key
      | some v => if key == ['0'] then v.value else none
      | none => none
    | none => (own.lookup name).or (s.value? name)
  let isKeyed (name : Chars) : Bool := (s.setting? name).any Variable.keyed
  let demands := s.extended && s.options.contains "nounset"
  let (result, assigned) := Arithmetic.evaluate s.extended demands read isKeyed source
  for (name, value) in assigned do
    match splitItem? name with
    | some (name, key) => assignItem name key value
    | none => assign name value
  match result with
  | .ok n => return n
  | .error (.unset name) => refuseUnset name
  | .error (.wording text) =>
    if subject.isEmpty then failInArithmetic text else fail (subject ++ str ": " ++ text)

def arithmetic (source : Chars) : Sh Int :=
  arithmeticOn [] source

/-- The key of the item that an index stands for, or nothing if there can be no such item.  A
negative number counts from behind the last item. -/
def indexKey? (name : Chars) (text : Chars) : Sh (Option Chars) := do
  let v := ((← session).setting? name).getD {}
  if text.isEmpty then return none
  else if v.keyed then return some text
  else
    let n ← needed (arithmetic text)
    if 0 ≤ n then return some (Chars.ofInt n)
    else
      let i := n + (v.items.elim 1 Items.next : Nat)
      return if 0 ≤ i then some (Chars.ofInt i) else none

def indexKey (name : Chars) (text : Chars) : Sh Chars := do
  match ← indexKey? name text with
  | some key => return key
  | none => fail (name ++ '[' :: text ++ str "]: bad array subscript")

/-- The text is the name of a variable, or in the extended dialect that of an item. -/
def isTarget (extended : Bool) (text : Chars) : Bool :=
  Chars.isName text || extended && (splitItem? text).any fun (name, key) =>
    Chars.isName name && !key.isEmpty

/-- Gives a variable, or an item that is written with brackets, a value. -/
def assignTarget (target value : Chars) : Sh Unit := do
  match splitItem? target with
  | some (name, key) => assignItem name (← indexKey name key) value
  | none => assign target value

def valuePart (quoted : Bool) (value : Chars) : List Part :=
  [.text quoted (!quoted) value]

def listParts (quoted joins : Bool) (values : List Chars) : Sh (List Part) := do
  if quoted && joins then
    return [.text true false ((← session).joiner.intercalate values)]
  else if values.isEmpty then return if quoted then [.nothing] else []
  else
    return [Part.boundary].intercalate (values.map fun value => [Part.text quoted (!quoted) value])

/-- What is done to the case of the characters of a text that a glob matches. -/
def recased (upper all : Bool) (glob? : Option Glob) (text : Chars) : Chars :=
  let change (c : Char) : Char :=
    if glob?.all (·.matches [c]) then (if upper then c.toUpper else c.toLower) else c
  if all then text.map change
  else
    match text with
    | c :: rest => change c :: rest
    | [] => []

/-- What takes the place of a match: characters, and `none` for the match itself. -/
abbrev Substitute := List (Option Char)

/-- The substitute that marked characters spell: `&` without quotation is the match, and a backslash
takes the meaning from it and from another backslash. -/
def substituteOf : List Marked → Substitute
  | (false, '\\') :: (false, '&') :: rest => some '&' :: substituteOf rest
  | (false, '\\') :: (false, '\\') :: rest => some '\\' :: substituteOf rest
  | (false, '&') :: rest => none :: substituteOf rest
  | (_, c) :: rest => some c :: substituteOf rest
  | [] => []

def inPlaceOf (found : Chars) (substitute : Substitute) : Chars :=
  substitute.flatMap fun
    | some c => [c]
    | none => found

def replaced (all : Bool) (glob : Glob) (substitute : Substitute) : (fuel : Nat) → Chars → Chars
  | 0, text => text
  | _, [] => []
  | fuel + 1, c :: rest =>
    match (glob.frontLengths (c :: rest)).getLast? with
    | some n =>
      if n = 0 then c :: replaced all glob substitute fuel rest
      else
        let after := (c :: rest).drop n
        inPlaceOf ((c :: rest).take n) substitute ++
          (if all then replaced all glob substitute fuel after else after)
    | none => c :: replaced all glob substitute fuel rest

def replacedAt (all : Bool) (anchor : Anchor) (glob : Glob) (substitute : Substitute)
    (text : Chars) : Chars :=
  match anchor with
  | .anywhere =>
    if text.isEmpty && !glob.isEmpty && glob.matches text then inPlaceOf [] substitute
    else replaced all glob substitute (text.length + 1) text
  | .front =>
    match (glob.frontLengths text).getLast? with
    | some n => inPlaceOf (text.take n) substitute ++ text.drop n
    | none => text
  | .back =>
    match ((List.range (text.length + 1)).filter fun n => glob.matches (text.drop n)).head? with
    | some n => text.take n ++ inPlaceOf (text.drop n) substitute
    | none => text

/-- The items from an offset on, at most so many of them; a negative offset counts from the end,
and so does a negative length, which must not lead to before the offset. -/
def sliced? {α : Type} (offset : Int) (length : Option Int) (items : List α) : Option (List α) :=
  let size : Int := items.length
  let start := if offset < 0 then size + offset else offset
  if start < 0 || size < start then some []
  else
    let rest := items.drop start.toNat
    match length with
    | none => some rest
    | some n =>
      if 0 ≤ n then some (rest.take n.toNat)
      else if size + n < start then none
      else some (rest.take (size - start + n).toNat)

/-- A text as the extended dialect writes it for itself. -/
def requoted (text : Chars) : Chars :=
  if Formatting.needsEscapes text then Formatting.withEscapes text
  else '\'' :: text.flatMap (fun c => if c == '\'' then str "'\\''" else [c]) ++ ['\'']

/-- A text in double quotation marks, or with escapes if it cannot be shown in them. -/
def doubleQuote (text : Chars) : Chars :=
  if Formatting.needsEscapes text then Formatting.withEscapes text
  else
    '"' :: text.flatMap (fun c => if "\"\\$\x60".toList.contains c then ['\\', c] else [c]) ++ ['"']

def attributeLetters (v : Variable) : Chars :=
  (if v.items.isSome then (if v.keyed then ['A'] else ['a']) else []) ++
  (if v.integer then ['i'] else []) ++ (if v.reference then ['n'] else []) ++
  (if v.readOnly then ['r'] else []) ++ (if v.exported then ['x'] else []) ++
  (match v.upper with
    | none => []
    | some isUpper => if isUpper then ['u'] else ['l'])

/-- A key as the extended dialect writes it for itself. -/
def shownKey (key : Chars) : Chars :=
  let isPlain := key.all fun c => c.isAlphanum || "_-./:=@%+,^\x7b\x7d~".toList.contains c
  if isPlain && !key.isEmpty then key else doubleQuote key

def shownItems (items : Items) : Chars :=
  let shown := items.toList.map fun (key, value) => '[' :: shownKey key ++ str "]=" ++ doubleQuote value
  '(' :: (if items.keyed then (shown.map fun item => item ++ [' ']).flatten
    else [' '].intercalate shown) ++ [')']

def declarationOf (name : Chars) (v : Variable) : Chars :=
  let front := str "declare -" ++ orElse (attributeLetters v) ['-'] ++ ' ' :: name
  match v.items, v.value with
  | some items, _ => front ++ '=' :: shownItems items
  | none, some value => front ++ '=' :: doubleQuote value
  | none, none => front

/-- The escapes of a text between quotation marks behind a dollar sign. -/
def unescaped (text : Chars) : Chars :=
  (({ zeroOctal := false, plainOctal := true, hex := true, stop := false } : Escapes).apply text).1

def transformed (letter : Char) (value : Chars) : Chars :=
  match letter with
  | 'Q' | 'K' | 'k' => requoted value
  | 'U' => recased true true none value
  | 'L' => recased false true none value
  | 'u' => recased true false none value
  | 'E' => unescaped value
  | _ => value

/-- The assignment that gives a variable what it has; of an array that is one item. -/
def assignmentOf (name : Chars) (v : Variable) (value : Chars) : Chars :=
  let letters := attributeLetters v
  let front := if letters.isEmpty then [] else str "declare -" ++ letters ++ [' ']
  front ++ name ++ '=' :: requoted value

/-- The values of a parameter that stands for many, and whether they are joined when quoted. -/
def valuesOf? (name : Chars) (index : Option Chars) : Sh (Option (List Chars × Bool)) := do
  match name, index with
  | ['@'], _ => return some ((← session).arguments, false)
  | ['*'], _ => return some ((← session).arguments, true)
  | _, some ['@'] => return some ((← itemsOf name).toList.map Prod.snd, false)
  | _, some ['*'] => return some ((← itemsOf name).toList.map Prod.snd, true)
  | _, _ => return none

/-- The value of a parameter, or of the item of an array at an index. -/
def valueOf? (name : Chars) (index : Option Chars) : Sh (Option Chars) := do
  match index with
  | none => parameter? name
  | some text =>
    match ← indexKey? name text with
    | some key => return (← itemsOf name).get? key
    | none =>
      if ((← session).setting? name).isSome then warn (name ++ str ": bad array subscript")
      return none

/-- The process and streams in which the output of a command is captured; `run` runs it. -/
structure Capturing where
  output : (isCopied : Bool) → Option Command → Sh Chars
  process : (reads : Bool) → Option Command → Sh Chars

def textParts (quoted splits : Bool) (s : Chars) : List Part :=
  if quoted && s.isEmpty then [.quotes] else [.text quoted (splits && !quoted) s]

/-- What expansion of words is needed for inside of words. -/
structure Expander where
  capturing : Capturing
  parts : (splits : Bool) → Word → Sh (List Part)

/-- The complaint about a substitution that means nothing. -/
def badSubstitution {α : Type} (spelling : Chars) : Sh α := do
  if ← isExtended then fail ('$' :: openingBrace :: spelling ++ str ": bad substitution")
  else fail (str "Bad substitution")

def transformLetters : Chars := "QEPAKakUuL".toList

/-- The fault of a letter that is no usage, which ends the shell. -/
def refuseTransform {α : Type} (name : Chars) (letter : Char) : Sh α := do
  warn ('$' :: openingBrace :: name ++ ['@', letter, '\x7d'] ++ str ": bad substitution")
  exit (← expansionFaultStatus)

/-- The parts of a parameter of which a single value is asked for. -/
def scalarParts (e : Expander) (quoted : Bool) (name : Chars) (index : Option Chars)
    (use : Usage) : Sh (List Part) := do
  let value ← valueOf? name index
  let text (w : Word) : Sh Chars := do
    return Part.joined (← e.parts false w)
  let glob (w : Word) : Sh Glob := do
    spend Machine.commandSteps
    return Glob.ofMarked (← globRules) (Part.marked (← e.parts false w))
  let substitute (w : Word) : Sh Substitute := do
    let spelled := Part.marked (← e.parts false w)
    return if ← hasSwitch "patsub_replacement" then substituteOf spelled
      else spelled.map fun c => some c.2
  match use with
  | .value =>
    let spelled := match index with
      | some key => name ++ '[' :: key ++ [']']
      | none => name
    return valuePart quoted (← demanded spelled value)
  | .size => return valuePart quoted (Chars.ofNat (← demanded name value).length)
  | .fallback kind orEmpty word =>
    let isSet := value.any fun v => !(orEmpty && v.isEmpty)
    let given : Sh (List Part) := do
      let parts ← e.parts (!quoted) word
      return if quoted then Part.quote parts else parts
    match kind with
    | .value => if isSet then return valuePart quoted (value.getD []) else given
    | .alternative => if isSet then given else return (if quoted then [.text true false []] else [])
    | .assigned =>
      if isSet then return valuePart quoted (value.getD [])
      else if !Chars.isName name then
        let extended ← isExtended
        fail (name ++ str (if extended then ": cannot assign in this way" else
          ": bad variable name"))
      else
        let new ← text word
        match index with
        | some key => assignItem name (← indexKey name key) new
        | none => assign name new
        return valuePart quoted new
    | .complaint =>
      if isSet then return valuePart quoted (value.getD [])
      else
        let extended ← isExtended
        let given ← text word
        let message := if !word.isEmpty then given
          else if orEmpty then
            str (if extended then "parameter null or not set" else "parameter not set or null")
          else str "parameter not set"
        warn (name ++ str ": " ++ message)
        if extended then exit (← expansionFaultStatus)
        else
          setStatus 2
          throw .fault
  | .trim front longest pattern =>
    let value ← demanded name value
    let glob ← glob pattern
    return valuePart quoted
      (if front then glob.cutFront longest value else glob.cutBack longest value)
  | .replace all anchor pattern replacement =>
    let isSet := value.isSome
    let value ← demanded name value
    if !isSet then return valuePart quoted []
    let glob ← glob pattern
    return valuePart quoted (replacedAt all anchor glob (← substitute replacement) value)
  | .slice offset length =>
    let isSet := value.isSome
    let value ← demanded name value
    if !isSet then return valuePart quoted []
    let subject := index.elim name fun key => name ++ '[' :: key ++ [']']
    let offset ← arithmeticOn subject (← text offset)
    let length ← length.mapM text
    let count ← length.mapM (arithmeticOn subject)
    match sliced? offset count value with
    | some part => return valuePart quoted part
    | none => fail (length.getD [] ++ str ": substring expression < 0")
  | .recase upper all pattern =>
    let glob? ← if pattern.isEmpty then pure none else do pure (some (← glob pattern))
    return valuePart quoted (recased upper all glob? (← demanded name value))
  | .malformed spelling => badSubstitution spelling
  | .keys => return valuePart quoted (if value.isSome then ['0'] else [])
  | .transform letter =>
    let isSet := value.isSome
    let value ← demanded name value
    match letter, (← session).setting? name with
    | 'a', v => return valuePart quoted (attributeLetters (v.getD {}))
    | 'A', v =>
      return valuePart quoted (if isSet then assignmentOf name (v.getD {}) value else [])
    | letter, _ =>
      if !transformLetters.contains letter then refuseTransform name letter
      else return valuePart quoted (if isSet then transformed letter value else [])
  | .indirect _ | .names => return []

def transformedParts (quoted joins : Bool) (name : Chars) (values : List Chars) (letter : Char) :
    Sh (List Part) := do
  let v := (← session).setting? name
  match letter, v with
  | 'A', some v => return valuePart quoted (declarationOf name v)
  | 'A', none =>
    let shown := values.map requoted
    return valuePart quoted (str "set -- " ++ [' '].intercalate shown)
  | 'a', v => listParts quoted joins (values.map fun _ => attributeLetters (v.getD {}))
  | 'K', some v =>
    let shown := (← itemsOf name).toList.map fun (key, value) => key ++ ' ' :: doubleQuote value
    return valuePart quoted ([' '].intercalate shown ++ if v.keyed then [' '] else [])
  | 'k', some _ =>
    listParts quoted joins ((← itemsOf name).toList.flatMap fun (key, value) => [key, value])
  | letter, _ =>
    if !transformLetters.contains letter then refuseTransform name letter
    else listParts quoted joins (values.map (transformed letter))

def manyParts (e : Expander) (quoted joins : Bool) (name : Chars) (values : List Chars)
    (use : Usage) : Sh (List Part) := do
  let text (w : Word) : Sh Chars := do
    return Part.joined (← e.parts false w)
  let glob (w : Word) : Sh Glob := do
    spend Machine.commandSteps
    return Glob.ofMarked (← globRules) (Part.marked (← e.parts false w))
  let substitute (w : Word) : Sh Substitute := do
    let spelled := Part.marked (← e.parts false w)
    return if ← hasSwitch "patsub_replacement" then substituteOf spelled
      else spelled.map fun c => some c.2
  match use with
  | .value => listParts quoted joins values
  | .size =>
    let s ← session
    let isArgument := name == ['@'] || name == ['*']
    if s.extended && !isArgument && s.options.contains "nounset" && (s.setting? name).isNone then
      fail (name ++ str ": unbound variable")
    let count := if s.extended then values.length else (s.joiner.intercalate values).length
    return valuePart quoted (Chars.ofNat count)
  | .fallback kind orEmpty word =>
    let isFilled := !(orEmpty && values.all List.isEmpty)
    let isSet := isFilled && (!values.isEmpty || !(← isExtended))
    let given : Sh (List Part) := do
      let parts ← e.parts (!quoted) word
      return if quoted then Part.quote parts else parts
    match kind with
    | .alternative => if isSet then given else return (if quoted then [.nothing] else [])
    | .value => if isSet then listParts quoted joins values else given
    | _ => listParts quoted joins values
  | .trim front longest pattern =>
    let glob ← glob pattern
    listParts quoted joins (values.map fun value =>
      if front then glob.cutFront longest value else glob.cutBack longest value)
  | .replace all anchor pattern replacement =>
    let glob ← glob pattern
    let new ← substitute replacement
    listParts quoted joins (values.map (replacedAt all anchor glob new))
  | .slice offset length =>
    let isArgument := name == ['@'] || name == ['*']
    let subject := if isArgument then name else name ++ '[' :: (if joins then '*' else '@') :: [']']
    let offset ← arithmeticOn subject (← text offset)
    let length ← length.mapM text
    let count ← length.mapM (arithmeticOn subject)
    if count.any (· < 0) then fail (length.getD [] ++ str ": substring expression < 0")
    let s ← session
    let behind ← if isArgument then
        let values := if offset ≤ 0 then s.name :: values else values
        let offset := if 0 < offset then offset - 1 else offset
        pure ((sliced? offset none values).getD [])
      else
        pure ((← itemsOf name).valuesFrom offset)
    listParts quoted joins (count.elim behind fun n => behind.take n.toNat)
  | .recase upper all pattern =>
    let glob? ← if pattern.isEmpty then pure none else do pure (some (← glob pattern))
    listParts quoted joins (values.map (recased upper all glob?))
  | .malformed spelling => badSubstitution spelling
  | .keys => listParts quoted joins ((← itemsOf name).toList.map Prod.fst)
  | .transform letter => transformedParts quoted joins name values letter
  | .indirect _ | .names => return []

/-- The parts of a parameter, which may stand for many values. -/
def namedParts (e : Expander) (quoted : Bool) (name : Chars) (index : Option Chars)
    (use : Usage) : Sh (List Part) := do
  match ← valuesOf? name index with
  | some (values, joins) => manyParts e quoted joins name values use
  | none => scalarParts e quoted name index use

/-- The name and the index of the parameter that a value names, if there can be one. -/
def target? (text : Chars) : Option (Chars × Option Chars) :=
  match splitItem? text with
  | some (name, key) => if Chars.isName name then some (name, some key) else none
  | none =>
    let isArgument := !text.isEmpty && text.all Char.isDigit
    if Chars.isName text || isArgument || ["@", "*", "#", "?", "-", "$", "!"].any (·.toList == text)
    then some (text, none)
    else none

/-- The parts of the parameter that the value of another one names. -/
def indirectParts (e : Expander) (quoted : Bool) (name : Chars) (index : Option Chars)
    (use : Usage) : Sh (List Part) := do
  match ((← session).bindings.lookup name).filter Variable.reference with
  | some v => return valuePart quoted (v.value.getD [])
  | none =>
    let fault {α : Type} (text : Chars) : Sh α := do
      warn text
      setStatus 1
      throw .fault
    match ← valueOf? name index with
    | none => fault (name ++ str ": invalid indirect expansion")
    | some text =>
      match target? text with
      | some (name, index) => namedParts e quoted name index use
      | none => fault (text ++ str ": invalid variable name")

/-- The parts of a piece; `splits` says whether text without quotation is split into fields. -/
def pieceParts (e : Expander) (splits : Bool) : Piece → Sh (List Part)
  | .text quoted s => return textParts quoted splits s
  | .parameter quoted name index use => do
    let index ← index.mapM fun w => do
      return Part.joined (← e.parts false w)
    match use with
    | .indirect use => indirectParts e quoted name index use
    | .names =>
      let names := (← session).bindings.map Prod.fst
      let found := Chars.sort (names.filter (Chars.startsWith · name))
      listParts quoted (index == some ['*']) found
    | use => namedParts e quoted name index use
  | .output quoted isCopied body => do
    let text ← e.capturing.output isCopied body
    return valuePart quoted text
  | .arithmetic quoted body => do
    let source := Part.joined (← e.parts false body)
    return valuePart quoted (Chars.ofInt (← arithmetic source))
  | .process reads body => do
    return [.text true false (← e.capturing.process reads body)]

/-- The parts of a word of some depth.  A tilde in front stands for a directory. -/
def partsAt (capturing : Capturing) : (depth : Nat) → (splits : Bool) → Word → Sh (List Part)
  | 0, _, _ => throw (.endless true)
  | depth + 1, splits, w => do
    let e : Expander := { capturing := capturing, parts := partsAt capturing depth }
    let front : Option (List Part) ← match w with
      | .text false s :: rest =>
        if rest.isEmpty || s.contains '/' then tildeParts ['/'] s else pure none
      | _ => pure none
    match front with
    | some parts => return parts ++ (← (w.drop 1).mapM (pieceParts e splits)).flatten
    | none => return (← w.mapM (pieceParts e splits)).flatten

/-- How deep words may be nested in words. -/
def maxWordDepth : Nat := 100

def parts (c : Capturing) (w : Word) : Sh (List Part) :=
  partsAt c maxWordDepth false w

def expandText (c : Capturing) (w : Word) : Sh Chars := do
  return Part.joined (← parts c w)

def expandValue (c : Capturing) (w : Word) : Sh Chars := do
  let e : Expander := { capturing := c, parts := partsAt c maxWordDepth }
  let found ← valueParts (pieceParts e false) true w
  let joiner := (← session).joiner
  return found.flatMap fun
    | .text _ _ s => s
    | .boundary => if joiner.isEmpty then [] else [' ']
    | .nothing | .quotes => []

/-- The pattern that a word spells, which may have groups if that is wanted. -/
def expandPattern (c : Capturing) (groups : Bool) (w : Word) : Sh Glob := do
  let rules ← globRules
  return Glob.ofMarked { rules with groups := rules.groups || groups } (Part.marked (← parts c w))

/-- The regular expression that a word spells: what is quoted stands for itself. -/
def expandRegex (c : Capturing) (w : Word) : Sh Chars := do
  let marked := Part.marked (← parts c w)
  return marked.flatMap fun (quoted, d) =>
    if quoted && !d.isAlphanum && d != '_' && d != ' ' then ['\\', d] else [d]

def verbatim? : Word → Option Chars
  | [.text true s] => some s
  | [.text false s] =>
    if s.isEmpty || s.any (fun c => c == '~' || c == '=') || mayBeWild s then none else some s
  | _ => none

def single? (ifs : Chars) : List Part → Option Chars
  | [.text quoted splits s] =>
    let isCut := splits && s.any ifs.contains
    if isCut || !quoted && (s.isEmpty || mayBeWild s) then none else some s
  | _ => none

/-- The texts that parts stand for: their fields, and the names of files that they match. -/
def partTexts (parts : List Part) : Sh (List Chars) := do
  let s ← session
  let fields := splitFields s.separators parts
  if s.options.contains "noglob" then return fields.map fun field => field.map Prod.snd
  else
    if fields.any (mayBeWild ∘ plainChars) then
      let rules ← nameRules
      let files := (← get).machine.files
      return fields.flatMap (fieldNames rules files s.directory)
    else return fields.map fun field => field.map Prod.snd

def expandWord (c : Capturing) (w : Word) : Sh (List Chars) := do
  match verbatim? w with
  | some text => return [text]
  | none =>
    let parts ← match w with
      | .text false text :: rest =>
        let name := text.takeWhile Chars.isNameChar
        match text.drop name.length with
        | '=' :: tail =>
          if (← isExtended) && Chars.isName name && tail.contains '~' then
            let front ← colonTildes rest.isEmpty (tail.length + 1) true tail
            let behind ← parts c rest
            pure (.text false false (name ++ ['=']) :: front ++ behind)
          else parts c w
        | _ => parts c w
      | w => parts c w
    match single? (← session).separators parts with
    | some text => return [text]
    | none => partTexts parts

def expandWords (c : Capturing) (ws : List Word) : Sh (List Chars) := do
  let ws := if ← isExtended then ws.flatMap braceWords else ws
  return (← ws.mapM (expandWord c)).flatten

end Sh

end ProductLine.Shell
