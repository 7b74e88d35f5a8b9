/- # Globs — patterns for names and for parts of values

`*` and `?` in a glob are wild, and brackets hold a choice of characters.
What a script quotes in a pattern stands for itself, so a glob is read from
characters that are marked as quoted or not.
-/
import ProductLine.Shell.Chars

namespace ProductLine.Shell

/-! ## Sets of characters -/

def asciiChars : Chars := (List.range 128).map Char.ofNat

def characterClasses : List (String × (Char → Bool)) :=
  [("alpha", Char.isAlpha), ("digit", Char.isDigit), ("alnum", Char.isAlphanum),
    ("upper", Char.isUpper), ("lower", Char.isLower), ("space", Chars.isSpace),
    ("blank", fun c => c == ' ' || c == '\t'),
    ("punct", fun c => 33 ≤ c.toNat && c.toNat ≤ 126 && !c.isAlphanum),
    ("cntrl", fun c => c.toNat < 32 || c.toNat == 127),
    ("print", fun c => 32 ≤ c.toNat && c.toNat ≤ 126),
    ("graph", fun c => 33 ≤ c.toNat && c.toNat ≤ 126),
    ("xdigit", fun c => (Chars.digitValue? c).any (· < 16))]

def classMembers? (name : Chars) : Option Chars :=
  (characterClasses.lookup (String.ofList name)).map asciiChars.filter

def charRange (first last : Char) : Chars :=
  ((List.range (last.toNat + 1)).drop first.toNat).map Char.ofNat

/-- The class named in front of `:]`, and what follows. -/
def splitClass (text : Chars) : Option (Chars × Chars) :=
  let name := text.takeWhile Char.isAlpha
  match text.drop name.length with
  | ':' :: ']' :: rest => (classMembers? name).map fun members => (members, rest)
  | _ => none

/-! ## Globs -/

/-- What may stand in the place of a group: one of its choices at most once, ever so often, at least
once or just once, or anything that none of them matches. -/
inductive GroupKind where
  | optional
  | repeated
  | several
  | single
  | other

/-- A part of a glob.  Groups are of the extended dialect. -/
inductive GlobItem where
  | exactly (c : Char)
  | anyChar
  | anyText
  | member (inverted : Bool) (members : Chars)
  | group (kind : GroupKind) (choices : List (List GlobItem))

abbrev Glob := List GlobItem

/-- How a glob is read: whether it may have groups, and whether letters match in both cases. -/
structure GlobRules where
  groups : Bool := false
  foldsCase : Bool := false

abbrev Marked := Bool × Char

/-- The members of brackets, up to the closing one, and what follows.  `fuel` bounds their
number. -/
def bracketMembers : (fuel : Nat) → (isFirst : Bool) → List Marked → Option (Chars × List Marked)
  | 0, _, _ => none
  | _, _, [] => none
  | fuel + 1, isFirst, (quoted, c) :: rest =>
    let more (members : Chars) (rest : List Marked) : Option (Chars × List Marked) :=
      (bracketMembers fuel false rest).map fun (others, rest) => (members ++ others, rest)
    if c == ']' && !quoted && !isFirst then some ([], rest)
    else if c == '[' && !quoted && (rest.head?.map Prod.snd) == some ':' then
      match splitClass ((rest.drop 1).map Prod.snd) with
      | some (members, after) => more members (rest.drop (rest.length - after.length))
      | none => more ['['] rest
    else
      match rest with
      | (false, '-') :: (q, d) :: rest' =>
        if d == ']' && !q then more [c] rest else more (charRange c d) rest'
      | _ => more [c] rest

/-- The kind of group that a character begins in front of a parenthesis. -/
def groupKind? : Char → Option GroupKind
  | '?' => some .optional
  | '*' => some .repeated
  | '+' => some .several
  | '@' => some .single
  | '!' => some .other
  | _ => none

/-- The choices of a group up to the parenthesis that closes it, and what follows; `depth` counts
the parentheses inside. -/
def splitGroup : List Marked → (depth : Nat) → (present : List Marked) →
    (before : List (List Marked)) → Option (List (List Marked) × List Marked)
  | [], _, _, _ => none
  | item :: rest, depth, present, before =>
    match item, depth with
    | (false, ')'), 0 => some ((present.reverse :: before).reverse, rest)
    | (false, ')'), depth + 1 => splitGroup rest depth (item :: present) before
    | (false, '('), depth => splitGroup rest (depth + 1) (item :: present) before
    | (false, '|'), 0 => splitGroup rest 0 [] (present.reverse :: before)
    | _, depth => splitGroup rest depth (item :: present) before

namespace GlobRules

def item (rules : GlobRules) (c : Char) : GlobItem :=
  if rules.foldsCase && c.isAlpha then .member false [c.toLower, c.toUpper] else .exactly c

def members (rules : GlobRules) (inverted : Bool) (members : Chars) : GlobItem :=
  .member inverted (if rules.foldsCase then members.map Char.toLower ++ members.map Char.toUpper
    else members)

/-- The glob that marked characters spell.  `fuel` bounds their number. -/
def read (rules : GlobRules) : (fuel : Nat) → List Marked → Glob
  | 0, _ => []
  | _, [] => []
  | fuel + 1, (true, c) :: rest => rules.item c :: read rules fuel rest
  | fuel + 1, (false, c) :: rest =>
    let group : Option (GlobItem × List Marked) :=
      match groupKind? c, rest with
      | some kind, (false, '(') :: inside =>
        if rules.groups then
          (splitGroup inside 0 [] []).map fun (choices, after) =>
            (.group kind (choices.map (read rules fuel)), after)
        else none
      | _, _ => none
    match group, c with
    | some (group, after), _ => group :: read rules fuel after
    | none, '*' => .anyText :: read rules fuel rest
    | none, '?' => .anyChar :: read rules fuel rest
    | none, '\\' =>
      match rest with
      | (_, d) :: rest => rules.item d :: read rules fuel rest
      | [] => [.exactly '\\']
    | none, '[' =>
      let inverted := rest.head? == some (false, '!') || rest.head? == some (false, '^')
      let inside := if inverted then rest.drop 1 else rest
      match bracketMembers (inside.length + 1) true inside with
      | some (members, after) => rules.members inverted members :: read rules fuel after
      | none => .exactly c :: read rules fuel rest
    | none, _ => rules.item c :: read rules fuel rest

end GlobRules

def Glob.ofMarked (rules : GlobRules) (text : List Marked) : Glob :=
  rules.read (text.length + 1) text

def Glob.ofText (text : Chars) : Glob :=
  Glob.ofMarked {} (text.map fun c => (false, c))

def Glob.isWild (glob : Glob) : Bool :=
  glob.any fun
    | .exactly _ => false
    | _ => true

/-- The text without each of its first characters in turn, the whole text first. -/
def suffixes : Chars → List Chars
  | [] => [[]]
  | c :: rest => (c :: rest) :: suffixes rest

/-- Ends of one text, each of them once, the longest first. -/
def inOrder (texts : List Chars) : List Chars :=
  let sized := (texts.map fun text => (text.length, text)).mergeSort fun a b => b.1 ≤ a.1
  let distinct := sized.foldl (fun kept item =>
    if (kept.head?.map Prod.fst) == some item.1 then kept else item :: kept) []
  distinct.reverse.map Prod.snd

/-- What remains after a step has been made ever so often; `fuel` bounds how often. -/
def afterSteps (step : List Chars → List Chars) : (fuel : Nat) → List Chars → List Chars
  | 0, texts => texts
  | fuel + 1, texts =>
    let next := inOrder (texts ++ step texts)
    if next.length ≤ texts.length then texts else afterSteps step fuel next

mutual

/-- What remains of texts after each way in which the glob matches their fronts.  The texts are ends
of one text, the longest first, and so is what remains. -/
def Glob.remainders : List GlobItem → List Chars → List Chars
  | [], texts => texts
  | item :: glob, texts => Glob.remainders glob (item.remainders texts)

/-- What remains of texts after each way in which an item matches their fronts. -/
def GlobItem.remainders : GlobItem → List Chars → List Chars
  | .anyText, texts =>
    match texts.head? with
    | none => []
    | some longest => suffixes longest
  | .anyChar, texts => texts.filterMap List.tail?
  | .exactly c, texts =>
    texts.filterMap fun
      | d :: rest => if c == d then some rest else none
      | [] => none
  | .member inverted members, texts =>
    texts.filterMap fun
      | d :: rest => if members.contains d != inverted then some rest else none
      | [] => none
  | .group kind choices, texts =>
    let once := inOrder (choiceRemainders choices texts)
    let most := (texts.head?.map List.length).getD 0 + 1
    match kind with
    | .single => once
    | .optional => inOrder (texts ++ once)
    | .repeated => afterSteps (choiceRemainders choices) most texts
    | .several => afterSteps (choiceRemainders choices) most once
    | .other =>
      inOrder (texts.flatMap fun text =>
        let matched := choiceRemainders choices [text]
        (suffixes text).filter fun rest => !matched.any (·.length == rest.length))

/-- What remains of texts after each way in which one of the globs matches their fronts. -/
def choiceRemainders : List (List GlobItem) → List Chars → List Chars
  | [], _ => []
  | glob :: others, texts => Glob.remainders glob texts ++ choiceRemainders others texts

end

def Glob.matches (glob : Glob) (text : Chars) : Bool :=
  (Glob.remainders glob [text]).any List.isEmpty

/-- The lengths of the parts at the front that match, the shortest first. -/
def Glob.frontLengths (glob : Glob) (text : Chars) : List Nat :=
  ((Glob.remainders glob [text]).map fun rest => text.length - rest.length).mergeSort (· ≤ ·)

/-- The text without what matches at its front: the shortest such part or the longest. -/
def Glob.cutFront (longest : Bool) (glob : Glob) (text : Chars) : Chars :=
  let lengths := glob.frontLengths text
  match if longest then lengths.getLast? else lengths.head? with
  | some n => text.drop n
  | none => text

/-- The text without what matches at its back: the shortest such part or the longest. -/
def Glob.cutBack (longest : Bool) (glob : Glob) (text : Chars) : Chars :=
  let starts := (List.range (text.length + 1)).filter fun n => glob.matches (text.drop n)
  match if longest then starts.head? else starts.getLast? with
  | some n => text.take n
  | none => text

end ProductLine.Shell
