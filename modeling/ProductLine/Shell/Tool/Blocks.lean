/- # Blocks — the tools `dd` and `split`

One copies an input in blocks of a size and counts them; the other one cuts
its input into files with names that count up.
-/
import ProductLine.Shell.Tool.Basic

namespace ProductLine.Shell.Blocks

/-- What the operands of `dd` say. -/
structure Copy where
  source : Option Chars := none
  target : Option Chars := none
  readSize : Nat := 512
  writeSize : Nat := 512
  count : Option Nat := none
  skip : Nat := 0
  seek : Nat := 0
  conversions : List Chars := []
  status : Chars := []

namespace Copy

def allConversions : List Chars :=
  ["ucase", "lcase", "notrunc", "noerror", "sync", "excl", "nocreat", "fsync", "fdatasync",
    "swab"].map str

def operand (c : Copy) (p : Process) (word : Chars) : Act Copy := do
  let name := word.takeWhile (· != '=')
  let value := word.drop (name.length + 1)
  let number : Act Nat := do
    match sizeArgument? value with
    | some n => return n
    | none => p.fail 1 (str "invalid number: " ++ Chars.quoted value)
  let size : Act Nat := do
    let n ← number
    if n = 0 then p.fail 1 (str "invalid number: " ++ Chars.quoted value) else return n
  match String.ofList name with
  | "if" => return { c with source := some value }
  | "of" => return { c with target := some value }
  | "bs" =>
    let n ← size
    return { c with readSize := n, writeSize := n }
  | "ibs" =>
    let n ← size
    return { c with readSize := n }
  | "obs" =>
    let n ← size
    return { c with writeSize := n }
  | "count" => return { c with count := some (← number) }
  | "skip" | "iseek" => return { c with skip := (← number) }
  | "seek" | "oseek" => return { c with seek := (← number) }
  | "conv" =>
    let conversions := value.splitOn ','
    match conversions.find? fun v => !allConversions.contains v with
    | some wrong => p.failWithHint 1 (str "invalid conversion: " ++ Chars.quoted wrong)
    | none => return { c with conversions := conversions }
  | "status" => return { c with status := value }
  | "iflag" | "oflag" | "cbs" => return c
  | _ => p.failWithHint 1 (str "unrecognized operand " ++ Chars.quoted word)

def convert (c : Copy) (text : Chars) : Chars :=
  if c.conversions.contains (str "ucase") then text.map Char.toUpper
  else if c.conversions.contains (str "lcase") then text.map Char.toLower
  else text

/-- Whole and partial blocks of a text, as the summary counts them. -/
def counted (size : Nat) (text : Chars) : Chars :=
  Chars.ofNat (text.length / size) ++ '+' :: Chars.ofNat (if text.length % size = 0 then 0 else 1)

def openTarget (c : Copy) (p : Process) (name : Chars) : Act Nat := do
  let keeps := c.conversions.contains (str "notrunc") || c.seek != 0
  match ← p.openPath name (if keeps then .both else .write) with
  | .ok opening => return opening
  | .error fault =>
    p.fail 1 (str "failed to open " ++ Chars.quoted name ++ str ": " ++ Process.reason fault)

def read (c : Copy) (p : Process) : Act Chars := do
  let p ← match c.source with
    | none => pure p
    | some name =>
      match ← p.openPath name .read with
      | .ok opening => pure (p.withStream 0 opening)
      | .error fault =>
        p.fail 1 (str "failed to open " ++ Chars.quoted name ++ str ": " ++ Process.reason fault)
  let bounded (count : Nat) : Act (Except FileFault Chars) :=
    p.readCount 0 count
  let text ← match ← bounded (c.skip * c.readSize) with
    | .error fault => pure (Except.error fault)
    | .ok _ =>
      match c.count with
      | some count => bounded (count * c.readSize)
      | none => p.readAll 0
  match text with
  | .ok text => return text
  | .error fault =>
    p.fail 1 (str "error reading " ++ Chars.quoted (c.source.getD (str "standard input")) ++
      str ": " ++ Process.reason fault)

/-- Moves the position of the target to where the copy begins. -/
def place (c : Copy) (p : Process) : Act Unit := do
  match p.stream? 1 with
  | none => return
  | some number =>
    match ← Machine.opening? number with
    | none => return
    | some opening =>
      Machine.setOpening number
        { opening with position := opening.position + c.seek * c.writeSize }

end Copy

/-- The names of pieces: so many letters or digits behind a front. -/
def pieceName (front : Chars) (digits : Chars) (width index : Nat) : Chars :=
  let base := digits.length
  front ++ (List.range width).map fun i =>
    digits.getD (index / Nat.pow base (width - 1 - i) % base) 'z'

def inGroups (size : Nat) : (fuel : Nat) → List Chars → List Chars
  | 0, _ => []
  | _, [] => []
  | fuel + 1, items => (items.take size).flatten :: inGroups size fuel (items.drop size)

end ProductLine.Shell.Blocks

namespace ProductLine.Shell.Tool

def dd : Tool := fun p => do
  let c ← p.arguments.foldlM (fun (c : Blocks.Copy) word => c.operand p word) {}
  let p ← match c.target with
    | none => pure p
    | some name => pure (p.withStream 1 (← c.openTarget p name))
  let text ← c.read p
  if c.seek != 0 then c.place p
  p.print (c.convert text)
  if c.status != str "none" then
    p.complain (Blocks.Copy.counted c.readSize text ++ str " records in\n" ++
      Blocks.Copy.counted c.writeSize text ++ str " records out\n")
    if c.status != str "noxfer" then
      p.complain (Chars.ofNat text.length ++ str " bytes copied, 0.0001 s, " ++
        Chars.ofNat (text.length * 10) ++ str " kB/s\n")

def split : Tool := fun p => do
  let (given, names) ← p.options <| .ofLetters "d" "lba"
    [("lines", 'l', .argument), ("bytes", 'b', .argument), ("suffix-length", 'a', .argument),
      ("numeric-suffixes", 'd', .nothing)] 1
  let size (letter : Char) (unit : String) (default : Nat) : Act Nat := do
    match Given.last? given letter with
    | none => return default
    | some text =>
      match sizeArgument? text with
      | none | some 0 =>
        p.fail 1 (str "invalid number of " ++ str unit ++ str ": " ++ Chars.quoted text)
      | some n => return n
  let width := ((Given.last? given 'a').bind Chars.toNat?).getD 2
  let digits := str (if Given.has given 'd' then "0123456789" else "abcdefghijklmnopqrstuvwxyz")
  let name := names.headD ['-']
  let front := (names.drop 1).headD ['x']
  let lineCount ← size 'l' "lines" 1000
  let byteCount ← size 'b' "bytes" 0
  match ← p.readInput name with
  | .error fault =>
    p.fail 1 (str "cannot open " ++ Chars.quoted name ++ str " for reading: " ++
      Process.reason fault)
  | .ok text =>
    p.awaitInputs [name]
    let pieces := if byteCount = 0 then
        Blocks.inGroups lineCount (text.length + 1) (Chars.pieces '\n' text)
      else Blocks.inGroups byteCount (text.length + 1) (text.map fun c => [c])
    for (piece, i) in pieces.zipIdx do
      let path := Blocks.pieceName front digits width i
      match ← p.openPath path .write with
      | .ok opening => let _ ← Machine.write opening piece
      | .error fault => p.fail 1 (path ++ str ": " ++ Process.reason fault)

end ProductLine.Shell.Tool
