/- # Dumps — the tool `od`

Its inputs, joined, are cut into blocks.  A block is shown once for each form
that is asked for: the address, then the units of the block in columns.  Forms
whose columns are narrower are spread so that units of one size line up.
-/
import ProductLine.Shell.Tool.Basic

namespace ProductLine.Shell.Dump

/-- What units are shown as. -/
inductive Kind where
  | name
  | char
  | signed
  | unsigned
  | octal
  | hex

/-- How a block is shown; `withText` adds its characters at the end of the line. -/
structure Form where
  kind : Kind
  size : Nat
  withText : Bool := false

namespace Form

def width (f : Form) : Nat :=
  let digits (base : Nat) : Nat := (Nat.toDigits base (Nat.pow 256 f.size - 1)).length
  match f.kind with
  | .name | .char => 3
  | .signed => (Nat.toDigits 10 (Nat.pow 256 f.size / 2)).length + 1
  | .unsigned => digits 10
  | .octal => digits 8
  | .hex => digits 16

def controlNames : List String :=
  ["nul", "soh", "stx", "etx", "eot", "enq", "ack", "bel", "bs", "ht", "nl", "vt", "ff", "cr", "so",
    "si", "dle", "dc1", "dc2", "dc3", "dc4", "nak", "syn", "etb", "can", "em", "sub", "esc", "fs",
    "gs", "rs", "us", "sp"]

/-- The name of a character, of which only seven bits count. -/
def nameOf (n : Nat) : Chars :=
  if n % 128 = 127 then str "del"
  else (controlNames[n % 128]?).elim [Char.ofNat (n % 128)] str

/-- A character as it may be written in a string. -/
def spelled (n : Nat) : Chars :=
  match n with
  | 0 => str "\\0"
  | 7 => str "\\a"
  | 8 => str "\\b"
  | 9 => str "\\t"
  | 10 => str "\\n"
  | 11 => str "\\v"
  | 12 => str "\\f"
  | 13 => str "\\r"
  | n =>
    if 32 ≤ n && n < 127 then [Char.ofNat n]
    else [n / 64, n / 8 % 8, n % 8].map fun d => Char.ofNat (d + 48)

/-- A unit of a block, which begins with its lowest byte, in a form that is so wide. -/
def shown (f : Form) (width : Nat) (unit : Chars) : Chars :=
  let value := unit.foldr (fun c n => c.toNat + 256 * n) 0
  let filled (base : Nat) : Chars :=
    let digits := Nat.toDigits base value
    List.replicate (width - digits.length) '0' ++ digits
  match f.kind with
  | .name => nameOf value
  | .char => spelled value
  | .signed =>
    let all := Nat.pow 256 f.size
    Chars.ofInt (if value < all / 2 then Int.ofNat value else Int.ofNat value - Int.ofNat all)
  | .unsigned => Chars.ofNat value
  | .octal => filled 8
  | .hex => filled 16

/-- The units of a block, the last one filled up with zeros. -/
def units (f : Form) : (fuel : Nat) → Chars → List Chars
  | 0, _ => []
  | _, [] => []
  | fuel + 1, block =>
    let unit := block.take f.size
    (unit ++ List.replicate (f.size - unit.length) '\x00') :: f.units fuel (block.drop f.size)

def lineWidth (f : Form) (blockSize : Nat) : Nat := (f.width + 1) * (blockSize / f.size)

def line (f : Form) (blockSize width : Nat) (block : Chars) : Chars :=
  let count := blockSize / f.size
  let own := f.width
  let spare := width - f.lineWidth blockSize
  let columns := (f.units blockSize block).zipIdx.flatMap fun (unit, i) =>
    let gap := spare * (count - i) / count - spare * (count - i - 1) / count
    Chars.padLeft (gap + 1 + own) (f.shown own unit)
  if f.withText then
    let text := block.map fun c => if 32 ≤ c.toNat && c.toNat < 127 then c else '.'
    Chars.padRight width columns ++ str "  >" ++ text ++ ['<']
  else columns

end Form

/-- How `od` shows its inputs. -/
structure Style where
  forms : List Form
  addressBase : Option Nat := some 8
  blockSize : Nat := 16
  repeats : Bool := false

namespace Style

def address (s : Style) (n : Nat) : Chars :=
  match s.addressBase with
  | none => []
  | some base =>
    let digits := Nat.toDigits base n
    List.replicate ((if base = 16 then 6 else 7) - digits.length) '0' ++ digits

/-- How wide a block is in the widest of the forms. -/
def width (s : Style) : Nat := (s.forms.map fun f => f.lineWidth s.blockSize).foldl max 0

def block (s : Style) (width place : Nat) (block : Chars) : Chars :=
  let front := s.address place
  s.forms.zipIdx.flatMap fun (f, i) =>
    (if i = 0 then front else List.replicate front.length ' ') ++
      f.line s.blockSize width block ++ ['\n']

/-- The blocks of a text from a place on, each so wide; a block like the one before is left out, and
the first one that is left out leaves a mark.  `fuel` bounds the blocks. -/
def blocks (s : Style) (width : Nat) : (fuel : Nat) → (place : Nat) → (before : Option Chars) →
    (marked : Bool) → Chars → List Chars
  | 0, _, _, _, _ => []
  | fuel + 1, place, before, marked, text =>
    let front := text.take s.blockSize
    if front.isEmpty then
      match s.addressBase with
      | some _ => [s.address place ++ ['\n']]
      | none => []
    else
      let rest := s.blocks width fuel (place + front.length) (some front)
      let others := text.drop s.blockSize
      if !s.repeats && before == some front && front.length == s.blockSize then
        (if marked then [] else str "*\n") :: rest true others
      else s.block width place front :: rest false others

end Style

/-- The forms that an argument spells.  `fuel` bounds the argument. -/
def readForms : (fuel : Nat) → Chars → Option (List Form)
  | 0, _ => none
  | _, [] => some []
  | fuel + 1, letter :: rest =>
    let kind? : Option Kind := match letter with
      | 'a' => some .name
      | 'c' => some .char
      | 'd' => some .signed
      | 'u' => some .unsigned
      | 'o' => some .octal
      | 'x' => some .hex
      | _ => none
    let hasSize := "duox".toList.contains letter
    let digits := if hasSize then rest.takeWhile Char.isDigit else []
    let rest := rest.drop digits.length
    let named : Option Nat := if !hasSize || !digits.isEmpty then none else match rest.head? with
      | some 'C' => some 1
      | some 'S' => some 2
      | some 'I' => some 4
      | some 'L' => some 8
      | _ => none
    let rest := if named.isSome then rest.drop 1 else rest
    let size := if !hasSize then 1
      else named.getD (if digits.isEmpty then 4 else Chars.digitsValue digits)
    let withText := rest.head? == some 'z'
    match kind?, readForms fuel (if withText then rest.drop 1 else rest) with
    | some kind, some others =>
      if [1, 2, 4, 8].contains size then
        some ({ kind := kind, size := size, withText := withText } :: others)
      else none
    | _, _ => none

def dumpSteps : Nat := 4

def options : OptionTable :=
  .ofLetters "abcdosxilv" "AtNjw"
    [("address-radix", 'A', .argument), ("format", 't', .argument), ("read-bytes", 'N', .argument),
      ("skip-bytes", 'j', .argument), ("width", 'w', .argument),
      ("output-duplicates", 'v', .nothing)] 1

def formsOf (p : Process) (option : Given) : Act (List Form) := do
  match option with
  | ('t', some text) =>
    match readForms (text.length + 1) text with
    | some forms => return forms
    | none => p.fail 1 (str "invalid type string " ++ Chars.quoted text)
  | ('a', _) => return [{ kind := .name, size := 1 }]
  | ('b', _) => return [{ kind := .octal, size := 1 }]
  | ('c', _) => return [{ kind := .char, size := 1 }]
  | ('d', _) => return [{ kind := .unsigned, size := 2 }]
  | ('o', _) => return [{ kind := .octal, size := 2 }]
  | ('s', _) => return [{ kind := .signed, size := 2 }]
  | ('x', _) => return [{ kind := .hex, size := 2 }]
  | ('i', _) => return [{ kind := .signed, size := 4 }]
  | ('l', _) => return [{ kind := .signed, size := 8 }]
  | _ => return []

def sizeOf (p : Process) (given : List Given) (letter : Char) : Act (Option Nat) := do
  match Given.last? given letter with
  | none => return none
  | some text =>
    match sizeArgument? text with
    | some n => return some n
    | none => p.fail 1 (str "invalid -" ++ letter :: str " argument " ++ Chars.quoted text)

end ProductLine.Shell.Dump

namespace ProductLine.Shell

def Tool.od : Tool := fun p => do
  let (given, names) ← p.options Dump.options
  let mut forms : List Dump.Form := []
  for option in given do
    forms := forms ++ (← Dump.formsOf p option)
  let base ← match Given.last? given 'A' with
    | none | some ['o'] => pure (some 8)
    | some ['d'] => pure (some 10)
    | some ['x'] => pure (some 16)
    | some ['n'] => pure none
    | some text => p.fail 1 (str "invalid output address radix " ++ Chars.quoted text ++
        str "; it must be one character from [doxn]")
  let skipped := (← Dump.sizeOf p given 'j').getD 0
  let most ← Dump.sizeOf p given 'N'
  let blockSize := max 1 ((← Dump.sizeOf p given 'w').getD 16)
  let names := Process.inputNames names
  let (inputs, ok) ← p.readInputs Process.faultOf names
  if inputs.isEmpty then Process.done 1
  let text := inputs.flatMap Prod.snd
  if text.length < skipped then p.fail 1 (str "cannot skip past end of combined input")
  let text := text.drop skipped
  let text := most.elim text text.take
  let style : Dump.Style :=
    { forms := if forms.isEmpty then [{ kind := .octal, size := 2 }] else forms
      addressBase := base, blockSize := blockSize, repeats := Given.has given 'v' }
  Machine.spend (Dump.dumpSteps * text.length)
  p.print (style.blocks style.width (text.length + 1) skipped none false text).flatten
  if most.isNone then p.awaitInputs names
  Process.done (if ok then 0 else 1)

end ProductLine.Shell
