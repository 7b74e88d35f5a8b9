/- # Exchanging characters — the tool `tr`

A set of characters is written with ranges, classes and repetitions.  The
second set is as long as the first one; its last character fills it up.
-/
import ProductLine.Shell.Tool.Basic
import ProductLine.Shell.Glob
import ProductLine.Shell.Format

namespace ProductLine.Shell.Tool

/-- A part of a set: characters, a class, or a character that fills the set up. -/
inductive SetItem where
  | chars (cs : Chars)
  | casing (name : String)
  | fill (c : Char)

def unescapeSet : (fuel : Nat) → Chars → List Marked
  | 0, _ => []
  | _, [] => []
  | _, ['\\'] => [(true, '\\')]
  | fuel + 1, '\\' :: c :: rest =>
    if '0' ≤ c && c ≤ '7' then
      let (d, after) := octalChar 3 (c :: rest)
      (true, d) :: unescapeSet fuel after
    else
      let e : Escapes := { zeroOctal := false, plainOctal := false, escapeChar := false }
      (true, (e.letter? c).getD c) :: unescapeSet fuel rest
  | fuel + 1, c :: rest => (false, c) :: unescapeSet fuel rest

/-- The members of a class, in the order of their codes. -/
def classChars? (name : Chars) : Option Chars :=
  (classMembers? name).map fun members =>
    ((List.range 256).map Char.ofNat).filter members.contains

/-- The complaint about a range that goes backwards. -/
def backwards (a b : Char) : Chars :=
  str "range-endpoints of '" ++ [a, '-', b] ++ str "' are in reverse collating sequence order"

/-- The text between brackets and a mark, such as `:` in `[:alpha:]`, and what follows. -/
def markedText? (mark : Char) (text : List Marked) : Option (Chars × List Marked) :=
  let rec go : List Marked → Chars → Option (Chars × List Marked)
    | (_, c) :: (_, d) :: rest, front =>
      if c == mark && d == ']' then some (front.reverse, rest)
      else go ((false, d) :: rest) (c :: front)
    | _, _ => none
  go text []

def setItems : (fuel : Nat) → List Marked → Except Chars (List SetItem)
  | 0, _ => .ok []
  | _, [] => .ok []
  | fuel + 1, (false, '[') :: (false, ':') :: rest =>
    match markedText? ':' rest with
    | some (name, after) => do
      let text := String.ofList name
      if text == "upper" || text == "lower" then
        return .casing text :: (← setItems fuel after)
      else
        match classChars? name with
        | some cs => return .chars cs :: (← setItems fuel after)
        | none => throw (str "invalid character class " ++ Chars.quoted name)
    | none => do return .chars ['['] :: (← setItems fuel ((false, ':') :: rest))
  | fuel + 1, (false, '[') :: (false, '=') :: (_, c) :: (false, '=') :: (false, ']') :: rest => do
    return .chars [c] :: (← setItems fuel rest)
  | fuel + 1, (false, '[') :: (q, c) :: (false, '*') :: rest =>
    let digits := (rest.takeWhile fun m => m.2.isDigit).map Prod.snd
    match rest.drop digits.length with
    | (_, ']') :: after => do
      let count := if digits.head? == some '0' then (Chars.leadingNumber 8 digits 0 0).1
        else Chars.digitsValue digits
      let item := if count = 0 then SetItem.fill c else .chars (List.replicate count c)
      return item :: (← setItems fuel after)
    | _ => do return .chars ['['] :: (← setItems fuel ((q, c) :: (false, '*') :: rest))
  | fuel + 1, (_, a) :: (false, '-') :: (q, b) :: rest =>
    if b.toNat < a.toNat then .error (backwards a b)
    else do
      let _ := q
      return .chars ((List.range (b.toNat - a.toNat + 1)).map fun i => Char.ofNat (a.toNat + i)) ::
        (← setItems fuel rest)
  | fuel + 1, (_, c) :: rest => do return .chars [c] :: (← setItems fuel rest)

def readSet (text : Chars) : Except Chars (List SetItem) :=
  let marked := unescapeSet (text.length + 1) text
  setItems (marked.length + 1) marked

def setChars (size : Nat) (items : List SetItem) : Chars :=
  let known := items.map fun
    | .chars cs => cs
    | .casing name => (classChars? name.toList).getD []
    | .fill _ => []
  let missing := size - known.flatten.length
  (items.zip known).flatMap fun
    | (.fill c, _) => List.replicate missing c
    | (_, cs) => cs

/-- Runs of the same character of a set as one. -/
def squeeze (isIn : Char → Bool) : Option Char → Chars → Chars
  | _, [] => []
  | last, c :: rest =>
    if isIn c && last == some c then squeeze isIn last rest else c :: squeeze isIn (some c) rest

/-- A table from the code of each character to a value. -/
def charTable {α : Type} (f : Char → α) : Array α :=
  ((List.range 256).map fun n => f (Char.ofNat n)).toArray

def tr : Tool := fun p => do
  let (given, names) ← p.options
    { OptionTable.ofLetters "cCdst" ""
        [("complement", 'c', .nothing), ("delete", 'd', .nothing),
          ("squeeze-repeats", 's', .nothing), ("truncate-set1", 't', .nothing)] 1 with
      inOrder := true }
  let has (c : Char) : Bool := Given.has given c
  let complements := has 'c' || has 'C'
  let readOne (text : Chars) : Act (List SetItem) := do
    match readSet text with
    | .ok items => return items
    | .error complaint => p.fail 1 complaint
  let names ← match names with
    | [] => p.failWithHint 1 (str "missing operand")
    | [one] =>
      if has 'd' == has 's' then
        p.warn (str "missing operand after " ++ Chars.quoted one)
        p.complain (str (if has 'd' then
            "Two strings must be given when both deleting and squeezing repeats.\n"
          else "Two strings must be given when translating.\n"))
        p.complain (str "Try '" ++ p.name ++ str " --help' for more information.\n")
        throw (.exited 1)
      else pure (one, none)
    | [one, two] =>
      if has 'd' && !has 's' then
        p.warn (str "extra operand " ++ Chars.quoted two)
        p.complain (str "Only one string may be given when deleting without squeezing repeats.\n")
        p.complain (str "Try '" ++ p.name ++ str " --help' for more information.\n")
        throw (.exited 1)
      else pure (one, some two)
    | _ :: _ :: extra :: _ => p.failWithHint 1 (str "extra operand " ++ Chars.quoted extra)
  let first ← readOne names.1
  let firstChars := setChars 0 first
  let second ← names.2.mapM readOne
  if first.any fun | .fill _ => true | _ => false then
    p.fail 1 (str "the [c*] repeat construct may not appear in string1")
  let exchanges := !has 'd' && second.isSome
  if exchanges && second.any List.isEmpty && !has 't' && !firstChars.isEmpty then
    p.fail 1 (str "when not truncating set1, string2 must be non-empty")
  let one := if complements then
      ((List.range 256).map Char.ofNat).filter fun c => !firstChars.contains c
    else firstChars
  let two := (second.map (setChars one.length)).getD []
  let one := if has 't' then one.take two.length else one
  let two := two ++ List.replicate (one.length - two.length) (two.getLastD ' ')
  match ← p.readInput ['-'] with
  | .error fault => p.fail 1 (str "read error: " ++ Process.reason fault)
  | .ok text =>
    let inOne := charTable one.contains
    let isIn (table : Array Bool) (c : Char) : Bool := table.getD c.toNat false
    let text ← if has 'd' then pure (text.filter fun c => !isIn inOne c)
      else if exchanges then
        let pairs := (one.zip two).reverse
        let image := charTable fun c => (pairs.lookup c).getD c
        pure (text.map fun c => image.getD c.toNat c)
      else pure text
    let squeezed := if exchanges || has 'd' then (second.map (setChars 0)).getD [] else one
    let squeezed := if exchanges then two else squeezed
    let inSqueezed := charTable squeezed.contains
    p.print (if has 's' then squeeze (isIn inSqueezed) none text else text)
    p.awaitEnd 0

end ProductLine.Shell.Tool
