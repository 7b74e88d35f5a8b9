/- # Brackets — the members of a set of characters

Between brackets stand characters, ranges, and names of classes.  A closing
bracket that comes first is a member, and so is a minus sign that comes first
or last.
-/
import ProductLine.Shell.Regex.Dialect

namespace ProductLine.Shell

namespace RegexDialect

def openBracket : String := "Unmatched [, [^, [:, [., or [="

/-- What one item between brackets gives: a character, which may begin or end a range, or members. -/
inductive Member where
  | one (c : Char)
  | many (members : Chars)

def bracketName (mark : Char) : Chars → Option (Chars × Chars)
  | [] => none
  | [_] => none
  | c :: d :: rest =>
    if c == mark && d == ']' then some ([], rest)
    else (bracketName mark (d :: rest)).map fun (name, rest) => (c :: name, rest)

/-- The item that is named after an opening bracket and a mark, and what follows. -/
def namedMember (mark : Char) (text : Chars) : Except String (Member × Chars) :=
  match bracketName mark text with
  | none => .error openBracket
  | some (name, rest) =>
    match mark, name with
    | ':', name =>
      match classMembers? name with
      | some members => .ok (.many members, rest)
      | none => .error "Invalid character class name"
    | '=', [c] => .ok (.many [c], rest)
    | _, [c] => .ok (.one c, rest)
    | _, _ => .error "Invalid collation character"

/-- The item at the front, and what follows.  `isFree` says that a minus sign may stand here by
itself. -/
def member (d : RegexDialect) (isFree : Bool) : Chars → Except String (Member × Chars)
  | [] => .error openBracket
  | '[' :: ':' :: rest => namedMember ':' rest
  | '[' :: mark :: rest =>
    if !d.codes && (mark == '.' || mark == '=') then namedMember mark rest
    else .ok (.one '[', mark :: rest)
  | '-' :: '-' :: '-' :: rest => .ok (.one '-', if d.codes then '-' :: '-' :: rest else rest)
  | '-' :: rest =>
    if isFree || d.codes || rest.head? == some ']' then .ok (.one '-', rest)
    else .error "Invalid range end"
  | '\\' :: c :: rest =>
    if d.codes then
      let (coded, rest) := codedChar c rest
      .ok (.one coded, rest)
    else
      match d.escapes, controlChar? c with
      | true, some control => .ok (.one control, rest)
      | _, _ => .ok (.one '\\', c :: rest)
  | c :: rest => .ok (.one c, rest)

def range (d : RegexDialect) (first last : Char) : Except String Chars :=
  if first.toNat ≤ last.toNat then .ok (charRange first last)
  else
    match d.downward with
    | .fault => .error "Invalid range end"
    | .nothing => .ok []
    | .characters => .ok [first, '-', last]

/-- The members of brackets up to the closing one, and what follows it.  `fuel` bounds the items. -/
def members (d : RegexDialect) : (fuel : Nat) → (isFirst : Bool) → Chars →
    Except String (Chars × Chars)
  | 0, _, _ => .error openBracket
  | fuel + 1, isFirst, text => do
    let more (found rest : Chars) : Except String (Chars × Chars) :=
      (d.members fuel false rest).map fun (others, rest) => (found ++ others, rest)
    match isFirst, text with
    | false, ']' :: rest => return ([], rest)
    | _, _ =>
      let (item, rest) ← d.member isFirst text
      match item, rest with
      | .many found, rest => more found rest
      | .one c, '-' :: ']' :: rest => more [c, '-'] (']' :: rest)
      | .one c, '-' :: '-' :: '-' :: rest => more [c] ('-' :: '-' :: '-' :: rest)
      | .one c, '-' :: rest =>
        match ← d.member true rest with
        | (.one last, rest) => more (← d.range c last) rest
        | (.many _, _) => throw "Invalid range end"
      | .one c, rest => more [c] rest

/-- The set that brackets spell behind the opening one, and what follows it. -/
def brackets (d : RegexDialect) (text : Chars) : Except String (Regex × Chars) := do
  let (inverted, text) := match text with
    | '^' :: text => (true, text)
    | text => (false, text)
  if text.isEmpty && !d.codes then throw "Invalid regular expression"
  let (found, rest) ← d.members (text.length + 1) true text
  return (.set inverted found, rest)

end RegexDialect

end ProductLine.Shell
