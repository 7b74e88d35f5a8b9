/- # Tools on the order of lines — sorting, and comparing with neighbours

A sort compares keys one after the other, and in the end whole lines.
-/
import ProductLine.Shell.Tool.Basic
import ProductLine.Shell.Number

namespace ProductLine.Shell.Tool

/-! ## Orders -/

/-- How texts are compared. -/
structure TextOrder where
  kind : Char := ' '
  reversed : Bool := false
  skipsBlanks : Bool := false
  onlyWords : Bool := false
  foldsCase : Bool := false
  onlyPrinted : Bool := false

def TextOrder.add (o : TextOrder) (letter : Char) : TextOrder :=
  match letter with
  | 'r' => { o with reversed := true }
  | 'b' => { o with skipsBlanks := true }
  | 'd' => { o with onlyWords := true }
  | 'f' => { o with foldsCase := true }
  | 'i' => { o with onlyPrinted := true }
  | c => { o with kind := c }

/-- The number at the front of a text, in thousandths of its smallest place: an integer part and the
digits behind the point. -/
def leadingDecimal (text : Chars) : Int × Chars :=
  let text := text.dropWhile Chars.isSpace
  let (negative, text) := match text with
    | '-' :: rest => (true, rest)
    | rest => (false, rest)
  let whole := text.takeWhile Char.isDigit
  let places := match text.drop whole.length with
    | '.' :: rest => ((rest.takeWhile Char.isDigit).reverse.dropWhile (· == '0')).reverse
    | _ => []
  let n : Int := Chars.digitsValue whole
  (if negative then -n else n,
    if negative && !(n == 0 && places.isEmpty) then '-' :: places else places)

/-- The order of fractions with the same integer part. -/
def comparePlaces : Chars → Chars → Ordering
  | '-' :: a, '-' :: b => Chars.compare b a
  | '-' :: _, _ => .lt
  | _, '-' :: _ => .gt
  | a, b => Chars.compare a b

def compareDecimals (a b : Chars) : Ordering :=
  let (m, p) := leadingDecimal a
  let (n, q) := leadingDecimal b
  match compare m n with
  | .eq => comparePlaces p q
  | order => order

/-- The order of quantities, of which what is no number comes first. -/
def compareQuantities (a b : Chars) : Ordering :=
  let value (text : Chars) : Option Quantity := (Quantity.read 64 text).map Prod.fst
  match value a, value b with
  | none, none => .eq
  | none, _ => .lt
  | _, none => .gt
  | some (.finite s m d), some (.finite t n e) =>
    let x : Int := if s then -(m * e : Nat) else (m * e : Nat)
    let y : Int := if t then -(n * d : Nat) else (n * d : Nat)
    compare x y
  | some (.infinite s), some (.infinite t) => compare t s
  | some (.infinite s), _ => if s then .lt else .gt
  | _, some (.infinite t) => if t then .gt else .lt
  | _, _ => .eq

def unitRank (text : Chars) : Nat :=
  let text := text.dropWhile fun c => Chars.isSpace c || c == '-'
  match text.dropWhile fun c => c.isDigit || c == '.' with
  | c :: _ => (("KMGTPEZY".toList.findIdx? (· == c.toUpper)).map (· + 1)).getD 0
  | [] => 0

def monthRank (text : Chars) : Nat :=
  let name := String.ofList (((text.dropWhile Chars.isSpace).take 3).map Char.toUpper)
  ((["JAN", "FEB", "MAR", "APR", "MAY", "JUN", "JUL", "AUG", "SEP", "OCT", "NOV",
    "DEC"].findIdx? (· == name)).map (· + 1)).getD 0

def versionRank (c : Char) : Nat :=
  if c == '~' then 0 else if c.isAlpha then c.toNat + 1 else c.toNat + 300

def compareWordsOfVersion : Chars → Chars → Ordering
  | [], [] => .eq
  | [], c :: _ => if c == '~' then .gt else .lt
  | c :: _, [] => if c == '~' then .lt else .gt
  | c :: cs, d :: ds =>
    if versionRank c < versionRank d then .lt
    else if versionRank d < versionRank c then .gt
    else compareWordsOfVersion cs ds

/-- The order of versions: parts of digits are compared as numbers.  `fuel` bounds the parts. -/
def compareVersions : (fuel : Nat) → Chars → Chars → Ordering
  | 0, _, _ => .eq
  | fuel + 1, a, b =>
    if a.isEmpty && b.isEmpty then .eq
    else
      let wordA := a.takeWhile (!·.isDigit)
      let wordB := b.takeWhile (!·.isDigit)
      match compareWordsOfVersion wordA wordB with
      | .eq =>
        let a := a.drop wordA.length
        let b := b.drop wordB.length
        let digitsA := a.takeWhile Char.isDigit
        let digitsB := b.takeWhile Char.isDigit
        match compare (Chars.digitsValue digitsA) (Chars.digitsValue digitsB) with
        | .eq => compareVersions fuel (a.drop digitsA.length) (b.drop digitsB.length)
        | order => order
      | order => order

def TextOrder.relevant (o : TextOrder) (text : Chars) : Chars :=
  let text := if o.skipsBlanks then text.dropWhile Chars.isSpace else text
  let text := if o.onlyWords then text.filter fun c => c.isAlphanum || c == ' ' || c == '\t'
    else if o.onlyPrinted then text.filter fun c => ' ' ≤ c && c ≤ '~' else text
  if o.foldsCase then text.map Char.toUpper else text

def TextOrder.compare (o : TextOrder) (a b : Chars) : Ordering :=
  let order := match o.kind with
    | 'n' => compareDecimals a b
    | 'g' => compareQuantities a b
    | 'h' =>
      match Ord.compare (unitRank a) (unitRank b) with
      | .eq => compareDecimals a b
      | order => order
    | 'M' => Ord.compare (monthRank a) (monthRank b)
    | 'V' => compareVersions (a.length + b.length + 1) a b
    | _ => Chars.compare (o.relevant a) (o.relevant b)
  if o.reversed then order.swap else order

/-! ## Keys -/

/-- A place in a line: a field and a character in it, both counted from one.  At the end of a key,
the character zero is the last one of the field. -/
structure Place where
  field : Nat
  char : Nat
  skipsBlanks : Bool := false

structure SortKey where
  first : Place
  last : Option Place
  order : Option TextOrder

/-- The fields of a line; without a delimiter, blanks in front belong to a field.  `fuel` bounds the
line. -/
def sortFields (delimiter : Option Char) : (fuel : Nat) → Chars → List Chars
  | 0, _ => []
  | fuel + 1, line =>
    match delimiter with
    | some d => line.splitOn d
    | none =>
      let isBlank (c : Char) : Bool := c == ' ' || c == '\t'
      let blanks := line.takeWhile isBlank
      let rest := line.drop blanks.length
      let word := rest.takeWhile fun c => !isBlank c
      let after := rest.drop word.length
      (blanks ++ word) :: (if after.isEmpty then [] else sortFields delimiter fuel after)

def SortKey.part (k : SortKey) (delimiter : Option Char) (line : Chars) : Chars :=
  let fields := sortFields delimiter (line.length + 1) line
  let gap := if delimiter.isSome then 1 else 0
  let starts (n : Nat) : Nat :=
    min line.length ((fields.take (n - 1)).foldl (fun sum f => sum + f.length + gap) 0)
  let blanksAt (i : Nat) : Nat :=
    ((line.drop i).takeWhile fun c => c == ' ' || c == '\t').length
  let place (p : Place) : Nat :=
    let start := starts p.field
    let start := if p.skipsBlanks then start + blanksAt start else start
    min line.length (start + (p.char - 1))
  let start := place k.first
  let stop := match k.last with
    | none => line.length
    | some p =>
      if p.char = 0 then min line.length (starts p.field + (fields.getD (p.field - 1) []).length)
      else min line.length (place p + 1)
  (line.drop start).take (stop - start)

/-- The place at the front of a text, and the letters behind it. -/
def placeOf? (isLast : Bool) (text : Chars) : Option (Place × Chars) :=
  let field := text.takeWhile Char.isDigit
  let rest := text.drop field.length
  if field.isEmpty || Chars.digitsValue field = 0 then none
  else
    match rest with
    | '.' :: more =>
      let char := more.takeWhile Char.isDigit
      if char.isEmpty then none
      else some (⟨Chars.digitsValue field, Chars.digitsValue char, false⟩, more.drop char.length)
    | rest => some (⟨Chars.digitsValue field, if isLast then 0 else 1, false⟩, rest)

def sortKey? (text : Chars) : Option SortKey := do
  let front := text.takeWhile (· != ',')
  let (first, letters) ← placeOf? false front
  let (last, more) ← if front.length < text.length then
      (placeOf? true (text.drop (front.length + 1))).map fun (p, more) => (some p, more)
    else some (none, [])
  let all := letters ++ more
  if all.all "bdfginhrMV".toList.contains then
    let order := if all.isEmpty then none else some (all.foldl TextOrder.add {})
    some
      { first := { first with skipsBlanks := letters.contains 'b' }
        last := last.map fun p => { p with skipsBlanks := more.contains 'b' }
        order := order }
  else none

/-! ## Sorting -/

structure Sorting where
  order : TextOrder
  keys : List SortKey
  delimiter : Option Char
  unique : Bool
  stable : Bool

def Sorting.compareKeys (s : Sorting) (a b : Chars) : Ordering :=
  if s.keys.isEmpty then s.order.compare a b
  else
    s.keys.foldl (fun order key =>
      match order with
      | .eq =>
        let own := match key.order with
          | some own => own
          | none => s.order
        let blanks := own.skipsBlanks && key.order.isNone
        let key := if blanks then { key with first := { key.first with skipsBlanks := true } }
          else key
        let own := { own with skipsBlanks := false }
        own.compare (key.part s.delimiter a) (key.part s.delimiter b)
      | order => order) .eq

def Sorting.compare (s : Sorting) (a b : Chars) : Ordering :=
  match s.compareKeys a b with
  | .eq =>
    if s.unique || s.stable then .eq
    else if s.order.reversed then Chars.compare b a else Chars.compare a b
  | order => order

def dropRepeats (same : Chars → Chars → Bool) : List Chars → List Chars
  | a :: b :: rest =>
    if same a b then dropRepeats same (a :: rest) else a :: dropRepeats same (b :: rest)
  | rest => rest
termination_by lines => lines.length

def Sorting.disorder? (s : Sorting) : (number : Nat) → List Chars → Option (Nat × Chars)
  | n, a :: b :: rest =>
    let order := s.compare a b
    if order == .gt || (s.unique && order == .eq) then some (n + 1, b)
    else s.disorder? (n + 1) (b :: rest)
  | _, _ => none

def sortOptions : OptionTable where
  letters := "bdfginhrMVRucCsmz".toList.map (fun c => (c, .nothing)) ++
    "ktoST".toList.map fun c => (c, .argument)
  long := [("reverse", 'r', .nothing), ("numeric-sort", 'n', .nothing), ("unique", 'u', .nothing),
    ("key", 'k', .argument), ("field-separator", 't', .argument), ("output", 'o', .argument),
    ("stable", 's', .nothing), ("check", 'c', .optional), ("ignore-case", 'f', .nothing),
    ("version-sort", 'V', .nothing), ("human-numeric-sort", 'h', .nothing),
    ("general-numeric-sort", 'g', .nothing), ("month-sort", 'M', .nothing),
    ("dictionary-order", 'd', .nothing), ("ignore-leading-blanks", 'b', .nothing),
    ("ignore-nonprinting", 'i', .nothing), ("merge", 'm', .nothing),
    ("zero-terminated", 'z', .nothing), ("random-sort", 'R', .nothing)]
  failure := 2

def sortFault (name : Chars) (fault : FileFault) : Chars :=
  if fault == .isADirectory then str "read failed: " ++ name ++ str ": Is a directory"
  else str "cannot read: " ++ name ++ str ": " ++ Process.reason fault

def sort : Tool := fun p => do
  let (given, names) ← p.options sortOptions
  let letters := (given.filter fun g => g.2.isNone).map Prod.fst
  let order := (letters.filter "bdfginhrMV".toList.contains).foldl TextOrder.add {}
  let keys ← (Given.all given 'k').mapM fun text => do
    match sortKey? text with
    | some key => return key
    | none =>
      let what := if (text.takeWhile Char.isDigit).isEmpty then
          str "invalid number at field start: invalid count at start of "
        else if (Chars.toNat? (text.takeWhile Char.isDigit)) == some 0 then
          str "field number is zero: invalid field specification "
        else str "stray character in field spec: invalid field specification "
      p.fail 2 (what ++ Chars.quoted text)
  let delimiter ← match Given.last? given 't' with
    | none => pure none
    | some [c] => pure (some c)
    | some [] => p.fail 2 (str "empty tab")
    | some text =>
      if text == str "\\0" then pure (some '\x00')
      else p.fail 2 (str "multi-character tab " ++ Chars.quoted text)
  let s : Sorting :=
    { order := order, keys := keys, delimiter := delimiter, unique := letters.contains 'u'
      stable := letters.contains 's' }
  let mark := if letters.contains 'z' then '\x00' else '\n'
  let names := Process.inputNames names
  let (inputs, ok) ← p.readInputs sortFault names
  if !ok then throw (.exited 2)
  p.awaitInputs names
  let lines := inputs.flatMap fun input =>
    (Chars.pieces mark input.2).map fun piece =>
      if piece.getLast? == some mark then piece.dropLast else piece
  if letters.contains 'c' || letters.contains 'C' then
    match s.disorder? 1 lines with
    | none => return
    | some (number, line) =>
      if letters.contains 'C' then throw (.exited 1)
      else
        p.fail 1 (names.headD [] ++ ':' :: Chars.ofNat number ++ str ": disorder: " ++ line)
  else
    let sorted := lines.mergeSort fun a b => (s.compare a b).isLE
    let sorted := if s.unique then
        dropRepeats (fun a b => s.compareKeys a b == .eq) sorted
      else sorted
    let text := sorted.flatMap (· ++ [mark])
    match Given.last? given 'o' with
    | none => p.print text
    | some path =>
      match ← p.openPath path .write with
      | .ok opening => let _ ← Machine.write opening text
      | .error fault =>
        p.fail 2 (str "open failed: " ++ path ++ str ": " ++ Process.reason fault)

/-! ## Neighbours -/

/-- How `uniq` treats lines. -/
structure Repeats where
  counts : Bool := false
  onlyRepeated : Bool := false
  onlySingle : Bool := false
  allRepeated : Bool := false
  foldsCase : Bool := false
  skippedFields : Nat := 0
  skippedChars : Nat := 0
  width : Option Nat := none

def skipFields : Nat → Chars → Chars
  | 0, line => line
  | n + 1, line =>
    let rest := line.dropWhile fun c => c == ' ' || c == '\t'
    skipFields n (rest.dropWhile fun c => c != ' ' && c != '\t')

def Repeats.key (r : Repeats) (line : Chars) : Chars :=
  let rest := (skipFields r.skippedFields line).drop r.skippedChars
  let rest := r.width.elim rest rest.take
  if r.foldsCase then rest.map Char.toLower else rest

/-- The lines with how often each is repeated; the last ones first. -/
def Repeats.groups (r : Repeats) (lines : List Chars) : List (List Chars) :=
  (lines.foldl (fun groups line =>
    match groups with
    | (last :: more) :: rest =>
      if r.key last == r.key line then (line :: last :: more) :: rest
      else [line] :: groups
    | _ => [line] :: groups) []).reverse

def Repeats.shown (r : Repeats) (group : List Chars) : Chars :=
  let line := group.getLastD []
  let repeated := 1 < group.length
  if r.allRepeated then (if repeated then group.reverse.flatMap (· ++ ['\n']) else [])
  else if (r.onlyRepeated && !repeated) || (r.onlySingle && repeated) then []
  else
    let front := if r.counts then Chars.padLeft 7 (Chars.ofNat group.length) ++ [' '] else []
    front ++ line ++ ['\n']

def uniq : Tool := fun p => do
  let (given, names) ← p.options <| .ofLetters "cdDuiz" "fsw"
    [("count", 'c', .nothing), ("repeated", 'd', .nothing), ("unique", 'u', .nothing),
      ("ignore-case", 'i', .nothing), ("skip-fields", 'f', .argument),
      ("skip-chars", 's', .argument), ("check-chars", 'w', .argument)] 1
  let number (letter : Char) : Option Nat := (Given.last? given letter).bind Chars.toNat?
  let r : Repeats :=
    { counts := Given.has given 'c', onlyRepeated := Given.has given 'd'
      onlySingle := Given.has given 'u', allRepeated := Given.has given 'D'
      foldsCase := Given.has given 'i', skippedFields := (number 'f').getD 0
      skippedChars := (number 's').getD 0, width := number 'w' }
  match names with
  | _ :: _ :: extra :: _ => p.failWithHint 1 (str "extra operand " ++ Chars.quoted extra)
  | names =>
    let input := names.headD ['-']
    match ← p.readInput input with
    | .error .isADirectory => p.fail 1 (str "error reading " ++ Chars.quoted input)
    | .error fault => p.fail 1 (Process.faultOf input fault)
    | .ok text =>
      p.awaitInputs [input]
      let shown := (r.groups (Chars.lines text)).flatMap r.shown
      match names with
      | [_, path] =>
        match ← p.openPath path .write with
        | .ok opening => let _ ← Machine.write opening shown
        | .error fault => p.fail 1 (Process.faultOf path fault)
      | _ => p.print shown

/-- Sorted lines of two inputs side by side: 1 and 2 for lines of one of them, 3 for lines of both.
`fuel` bounds the lines. -/
def sideBySide : (fuel : Nat) → List Chars → List Chars → List (Nat × Chars)
  | 0, _, _ => []
  | _, [], bs => bs.map fun b => (2, b)
  | _, as, [] => as.map fun a => (1, a)
  | fuel + 1, a :: as, b :: bs =>
    match Chars.compare a b with
    | .lt => (1, a) :: sideBySide fuel as (b :: bs)
    | .gt => (2, b) :: sideBySide fuel (a :: as) bs
    | .eq => (3, a) :: sideBySide fuel as bs

def comm : Tool := fun p => do
  let (given, names) ← p.options <| .ofLetters "123z" "" [("output-delimiter", 'O', .argument)] 1
  match names with
  | [left, right] =>
    let (inputs, ok) ← p.readInputs Process.faultOf [left, right]
    if !ok then throw (.exited 1)
    p.awaitInputs names
    let lines (i : Nat) : List Chars := Chars.lines ((inputs[i]?).map Prod.snd |>.getD [])
    let tab := (Given.last? given 'O').getD ['\t']
    let hides (c : Char) : Bool := Given.has given c
    let indent (column : Nat) : Chars :=
      (if column > 1 && !hides '1' then tab else []) ++
        (if column > 2 && !hides '2' then tab else [])
    let pairs := sideBySide ((lines 0).length + (lines 1).length + 1) (lines 0) (lines 1)
    p.print (pairs.flatMap fun (column, line) =>
      if hides (Char.ofNat (column + 48)) then [] else indent column ++ line ++ ['\n'])
  | [] => p.failWithHint 1 (str "missing operand")
  | [name] => p.failWithHint 1 (str "missing operand after " ++ Chars.quoted name)
  | _ :: _ :: name :: _ => p.failWithHint 1 (str "extra operand " ++ Chars.quoted name)

end ProductLine.Shell.Tool
