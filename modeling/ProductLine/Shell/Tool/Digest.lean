/- # Codes and digests — `base64` and the tools that print checksums

A text is coded in groups of bytes as digits of a base that is a power of two.
The digests run over blocks of a text that is filled up with its length.  The
constants of the second family are the fractions of roots of the first primes.
-/
import ProductLine.Shell.Tool.Basic

namespace ProductLine.Shell.Digest

/-! ## Codes -/

/-- A code: the digits, how many bits each of them has, and the bytes and digits of a group. -/
structure Code where
  digits : Chars
  bits : Nat
  bytes : Nat
  count : Nat

def letters : String := "ABCDEFGHIJKLMNOPQRSTUVWXYZ"

def code64 : Code :=
  { digits := str letters ++ str "abcdefghijklmnopqrstuvwxyz0123456789+/"
    bits := 6, bytes := 3, count := 4 }

def code32 : Code := { digits := str letters ++ str "234567", bits := 5, bytes := 5, count := 8 }

namespace Code

/-- The number that digits of a base spell, the highest first. -/
def value (base : Nat) (digits : List Nat) : Nat := digits.foldl (fun n d => n * base + d) 0

/-- So many digits of a number in a base, the highest first. -/
def expand (base count n : Nat) : List Nat :=
  (List.range count).map fun i => n / Nat.pow base (count - 1 - i) % base

/-- A group of bytes in digits; those that hold nothing are equals signs. -/
def encodeGroup (c : Code) (group : Chars) : Chars :=
  let filled := group.map Char.toNat ++ List.replicate (c.bytes - group.length) 0
  let used := (group.length * 8 + c.bits - 1) / c.bits
  let digits := expand (Nat.pow 2 c.bits) c.count (value 256 filled)
  (digits.take used).map (fun d => c.digits.getD d '=') ++ List.replicate (c.count - used) '='

def encode (c : Code) : (fuel : Nat) → Chars → Chars
  | 0, _ => []
  | _, [] => []
  | fuel + 1, text => c.encodeGroup (text.take c.bytes) ++ c.encode fuel (text.drop c.bytes)

/-- The bytes of a group of digits, and whether it is a proper one. -/
def decodeGroup (c : Code) (group : Chars) : Chars × Bool :=
  let digits := (group.takeWhile c.digits.contains).map fun d => c.digits.idxOf d
  let filled := digits ++ List.replicate (c.count - digits.length) 0
  let known := digits.length * c.bits / 8
  let bytes := (expand 256 c.bytes (value (Nat.pow 2 c.bits) filled)).take known
  let rest := group.drop digits.length
  let isProper := group.length == c.count && rest.all (· == '=') &&
    (known * 8 + c.bits - 1) / c.bits == digits.length && 0 < known
  (bytes.map Char.ofNat, isProper)

/-- The text that digits spell, and whether all of them do.  `fuel` bounds the groups. -/
def decode (c : Code) : (fuel : Nat) → Chars → Chars × Bool
  | 0, _ => ([], true)
  | _, [] => ([], true)
  | fuel + 1, text =>
    let (front, isProper) := c.decodeGroup (text.take c.count)
    if isProper then
      let (rest, ok) := c.decode fuel (text.drop c.count)
      (front ++ rest, ok)
    else (front, false)

end Code

/-- A text in lines of a width, which has no limit if it is zero.  `fuel` bounds the lines. -/
def inLines (width : Nat) : (fuel : Nat) → Chars → Chars
  | 0, _ => []
  | _, [] => []
  | fuel + 1, text =>
    if width = 0 then text
    else text.take width ++ '\n' :: inLines width fuel (text.drop width)

def coder (c : Code) : Tool := fun p => do
  let (given, names) ← p.options <| .ofLetters "di" "w"
    [("decode", 'd', .nothing), ("ignore-garbage", 'i', .nothing), ("wrap", 'w', .argument)] 1
  match names with
  | _ :: extra :: _ => p.failWithHint 1 (str "extra operand " ++ Chars.quoted extra)
  | _ => pure ()
  let width ← match Given.last? given 'w' with
    | none => pure 76
    | some text =>
      match Chars.toNat? text with
      | some n => pure n
      | none => p.fail 1 (str "invalid wrap size: " ++ Chars.quoted text)
  let names := Process.inputNames names
  let (inputs, ok) ← p.readInputs Process.faultOf names
  p.awaitInputs names
  if !ok then Process.done 1
  let text := inputs.flatMap Prod.snd
  if Given.has given 'd' then
    let digits := text.filter fun d =>
      d != '\n' && (!Given.has given 'i' || d == '=' || c.digits.contains d)
    let (bytes, isProper) := c.decode (digits.length + 1) digits
    p.print bytes
    if !isProper then p.fail 1 (str "invalid input")
  else p.print (inLines width (text.length + 1) (c.encode (text.length + 1) text))

/-! ## Checksums -/

def crcBit (crc : UInt32) : UInt32 :=
  if crc &&& 0x80000000 == 0 then crc <<< 1 else (crc <<< 1) ^^^ 0x04C11DB7

def crcByte (crc : UInt32) (byte : Nat) : UInt32 :=
  (List.range 8).foldl (fun crc _ => crcBit crc) (crc ^^^ (UInt32.ofNat byte <<< 24))

/-- The bytes of a number, the lowest first, without zeros at the end. -/
def bytesOf (n : Nat) : List Nat := ((Code.expand 256 8 n).dropWhile (· == 0)).reverse

def crc (text : Chars) : Nat :=
  let bytes := text.map Char.toNat ++ bytesOf text.length
  (bytes.foldl crcByte 0 ^^^ 0xFFFFFFFF).toNat

def sum (text : Chars) : Nat :=
  text.foldl (fun n c => ((n / 2 + n % 2 * 32768) + c.toNat) % 65536) 0

/-! ## Digests -/

/-- Words of a size in bits: numbers below their `count`, which is a power of two. -/
structure WordSize where
  bits : Nat
  count : Nat

/-- A turn to the right of words, or their loss of low bits: the `low` bits are below this power of
two, and this one is where they go. -/
structure Turn where
  low : Nat
  high : Nat

namespace Turn

def turned (t : Turn) (x : Nat) : Nat := x / t.low + x % t.low * t.high

/-- A word without its low bits. -/
def dropped (t : Turn) (x : Nat) : Nat := x / t.low

end Turn

namespace WordSize

def right (w : WordSize) (n : Nat) : Turn := ⟨Nat.pow 2 n, Nat.pow 2 (w.bits - n)⟩

def left (w : WordSize) (n : Nat) : Turn := w.right (w.bits - n)

def add (w : WordSize) (x y : Nat) : Nat := (x + y) % w.count

def inverse (w : WordSize) (x : Nat) : Nat := w.count - 1 - x

/-- The bits of a second word where the first one has ones, and of a third one elsewhere. -/
def choose (w : WordSize) (x y z : Nat) : Nat := (x &&& y) ||| (w.inverse x &&& z)

def majority (_ : WordSize) (x y z : Nat) : Nat := (x &&& y) ||| (x &&& z) ||| (y &&& z)

def bytes (w : WordSize) (x : Nat) : List Nat := Code.expand 256 (w.bits / 8) x

/-- The words of a block of sixteen; `isReversed` says that the lowest byte of each comes first. -/
def block (w : WordSize) (isReversed : Bool) (bytes : Array Nat) (start : Nat) : List Nat :=
  let size := w.bits / 8
  (List.range 16).map fun i =>
    let word := (List.range size).map fun j => bytes.getD (start + i * size + j) 0
    Code.value 256 (if isReversed then word.reverse else word)

def filled (w : WordSize) (isReversed : Bool) (text : Chars) : Array Nat :=
  let size := w.bits / 8
  let length := text.length * 8
  let places := Code.expand 256 (2 * size) length
  let gap := (16 * size - (text.length + 1 + 2 * size) % (16 * size)) % (16 * size)
  let all := text.map Char.toNat ++ 128 :: List.replicate gap 0 ++
    if isReversed then places.reverse else places
  all.toArray

def foldBlocks {State : Type} (w : WordSize) (isReversed : Bool) (step : State → List Nat → State)
    (first : State) (text : Chars) : State :=
  let all := w.filled isReversed text
  let size := 2 * w.bits
  (List.range (all.size / size)).foldl
    (fun state i => step state (w.block isReversed all (i * size))) first

end WordSize

def hex (bytes : List Nat) : Chars :=
  bytes.flatMap fun b => (Code.expand 16 2 b).map Nat.digitChar

def words32 : WordSize := { bits := 32, count := 4294967296 }

def words64 : WordSize := { bits := 64, count := 18446744073709551616 }

def md5Constants : Array Nat :=
  ((List.range 64).map fun i =>
    (4294967296 * (Float.sin (Float.ofNat (i + 1))).abs).floor.toUInt64.toNat).toArray

/-- The turns of the fifth digest, four for each quarter of the rounds. -/
def md5Turns : Array Turn :=
  ([7, 12, 17, 22, 5, 9, 14, 20, 4, 11, 16, 23, 6, 10, 15, 21].map words32.left).toArray

def md5Round (constants : Array Nat) (turns : Array Turn) (words : Array Nat)
    (state : Nat × Nat × Nat × Nat) (i : Nat) : Nat × Nat × Nat × Nat :=
  let w := words32
  let (a, b, c, d) := state
  let (f, index) := match i / 16 with
    | 0 => (w.choose b c d, i)
    | 1 => (w.choose d b c, (5 * i + 1) % 16)
    | 2 => (b ^^^ c ^^^ d, (3 * i + 5) % 16)
    | _ => (c ^^^ (b ||| w.inverse d), (7 * i) % 16)
  let sum := (a + f + constants.getD i 0 + words.getD index 0) % w.count
  (d, w.add b ((turns.getD (i / 16 * 4 + i % 4) ⟨1, 1⟩).turned sum), b, c)

def md5 (text : Chars) : Chars :=
  let w := words32
  let constants := md5Constants
  let turns := md5Turns
  let rounds := List.range 64
  let step (state : Nat × Nat × Nat × Nat) (block : List Nat) : Nat × Nat × Nat × Nat :=
    let (a, b, c, d) := rounds.foldl (md5Round constants turns block.toArray) state
    (w.add state.1 a, w.add state.2.1 b, w.add state.2.2.1 c, w.add state.2.2.2 d)
  let (a, b, c, d) :=
    w.foldBlocks true step (0x67452301, 0xefcdab89, 0x98badcfe, 0x10325476) text
  hex ([a, b, c, d].flatMap fun x => (w.bytes x).reverse)

/-- The words of a block, with more made of them, which are numbered; `next` makes a word of those
before. -/
def extended (next : Array Nat → Nat → Nat) (numbers : List Nat) (block : List Nat) : Array Nat :=
  numbers.foldl (fun words i => words.push (next words i)) block.toArray

def sha1 (text : Chars) : Chars :=
  let w := words32
  let one := w.left 1
  let five := w.left 5
  let thirty := w.left 30
  let next (words : Array Nat) (i : Nat) : Nat :=
    let word (k : Nat) : Nat := words.getD (i - k) 0
    one.turned (word 3 ^^^ word 8 ^^^ word 14 ^^^ word 16)
  let round (words : Array Nat) (state : List Nat) (i : Nat) : List Nat :=
    match state with
    | [a, b, c, d, e] =>
      let (f, constant) := match i / 20 with
        | 0 => (w.choose b c d, 0x5a827999)
        | 1 => (b ^^^ c ^^^ d, 0x6ed9eba1)
        | 2 => (w.majority b c d, 0x8f1bbcdc)
        | _ => (b ^^^ c ^^^ d, 0xca62c1d6)
      [(five.turned a + f + e + constant + words.getD i 0) % w.count, a, thirty.turned b, c, d]
    | state => state
  let rounds := List.range 80
  let step (state : List Nat) (block : List Nat) : List Nat :=
    let words := extended next (rounds.drop 16) block
    state.zipWith w.add (rounds.foldl (round words) state)
  let start := [0x67452301, 0xefcdab89, 0x98badcfe, 0x10325476, 0xc3d2e1f0]
  hex ((w.foldBlocks false step start text).flatMap w.bytes)

/-- The largest number whose power is not above a number.  `fuel` bounds its bits. -/
def root (power n : Nat) : (fuel : Nat) → (sofar : Nat) → Nat
  | 0, sofar => sofar
  | fuel + 1, sofar =>
    let more := sofar + Nat.pow 2 fuel
    root power n fuel (if Nat.pow more power ≤ n then more else sofar)

def primes (count : Nat) : List Nat :=
  ((List.range 420).filter fun n =>
    1 < n && (List.range n).all fun d => d < 2 || n % d != 0).take count

def fraction (w : WordSize) (power n : Nat) : Nat :=
  root power (n * Nat.pow 2 (w.bits * power)) (w.bits + 5) 0 % w.count

/-- A function that turns a word in three ways and joins what comes of it; the last turn may only
drop bits. -/
structure Mixing where
  one : Turn
  two : Turn
  three : Turn
  drops : Bool

def Mixing.mixed (m : Mixing) (x : Nat) : Nat :=
  m.one.turned x ^^^ m.two.turned x ^^^
    if m.drops then m.three.dropped x else m.three.turned x

/-- The function that turns words to the right by so many bits. -/
def WordSize.mixing (w : WordSize) (one two three : Nat) (drops : Bool) : Mixing :=
  ⟨w.right one, w.right two, w.right three, drops⟩

/-- A digest of the second family: the size of its words, the rounds, its functions for the rounds
and for more words, the first state, and how many bytes of the last one are kept. -/
structure Family where
  size : WordSize
  rounds : Nat
  first : Mixing
  second : Mixing
  early : Mixing
  late : Mixing
  start : List Nat
  kept : Nat

namespace Family

def nextWord (f : Family) (words : Array Nat) (i : Nat) : Nat :=
  let word (k : Nat) : Nat := words.getD (i - k) 0
  (word 16 + f.early.mixed (word 15) + word 7 + f.late.mixed (word 2)) % f.size.count

def round (f : Family) (constants words : Array Nat) (state : List Nat) (i : Nat) : List Nat :=
  match state with
  | [a, b, c, d, e, g, h, k] =>
    let one := k + f.second.mixed e + f.size.choose e g h + constants.getD i 0 + words.getD i 0
    let two := f.first.mixed a + f.size.majority a b c
    [f.size.add one two, a, b, c, f.size.add d one, e, g, h]
  | state => state

def digest (f : Family) (text : Chars) : Chars :=
  let constants := ((primes f.rounds).map (fraction f.size 3)).toArray
  let rounds := List.range f.rounds
  let step (state : List Nat) (block : List Nat) : List Nat :=
    let words := extended f.nextWord (rounds.drop 16) block
    state.zipWith f.size.add (rounds.foldl (f.round constants words) state)
  hex (((f.size.foldBlocks false step f.start text).flatMap f.size.bytes).take f.kept)

end Family

def sha256 : Family :=
  { size := words32, rounds := 64
    first := words32.mixing 2 13 22 false, second := words32.mixing 6 11 25 false
    early := words32.mixing 7 18 3 true, late := words32.mixing 17 19 10 true
    start := (primes 8).map (fraction words32 2), kept := 32 }

def sha224 : Family :=
  { sha256 with
    start := ((primes 16).drop 8).map fun n => fraction words64 2 n % 4294967296, kept := 28 }

def sha512 : Family :=
  { size := words64, rounds := 80
    first := words64.mixing 28 34 39 false, second := words64.mixing 14 18 41 false
    early := words64.mixing 1 8 7 true, late := words64.mixing 19 61 6 true
    start := (primes 8).map (fraction words64 2), kept := 64 }

def sha384 : Family :=
  { sha512 with start := ((primes 16).drop 8).map (fraction words64 2), kept := 48 }

/-! ## The programs -/

/-- How often the steps of reading a text are used up for its digest. -/
def digestSteps : Nat := 4

def eachInput (p : Process) (names : List Chars) (line : Chars → Chars → Chars) : Act Unit := do
  let mut status := 0
  for name in Process.inputNames names do
    match ← p.readInput name with
    | .error fault =>
      p.warn (Process.faultOf name fault)
      status := 1
    | .ok text =>
      if name == ['-'] then p.awaitEnd 0
      Machine.spend (digestSteps * text.length)
      p.print (line name text ++ ['\n'])
  Process.done status

def digester (label : String) (digest : Chars → Chars) : Tool := fun p => do
  let (given, names) ← p.options <| .ofLetters "bt" ""
    [("binary", 'b', .nothing), ("text", 't', .nothing), ("tag", '1', .nothing)] 1
  eachInput p names fun name text =>
    if Given.has given '1' then
      str label ++ str " (" ++ name ++ str ") = " ++ digest text
    else
      digest text ++ [' ', if Given.lastOf? given "bt" == some 'b' then '*' else ' '] ++ name

end ProductLine.Shell.Digest

namespace ProductLine.Shell.Tool

def cksum : Tool := fun p => do
  let (_, names) ← p.options <| .ofLetters "" "" [] 1
  Digest.eachInput p names fun name text =>
    Chars.ofNat (Digest.crc text) ++ ' ' :: Chars.ofNat text.length ++
      if names.isEmpty then [] else ' ' :: name

def sum : Tool := fun p => do
  let (_, names) ← p.options <| .ofLetters "r" "" [] 1
  Digest.eachInput p names fun name text =>
    let value := Chars.ofNat (Digest.sum text)
    List.replicate (5 - value.length) '0' ++ value ++ ' ' ::
      Chars.padLeft 5 (Chars.ofNat ((text.length + 1023) / 1024)) ++
      if names.isEmpty then [] else ' ' :: name

/-- The programs for codes and digests, by their names. -/
def digesters : List (Program × Tool) :=
  [("base64", Digest.coder Digest.code64), ("base32", Digest.coder Digest.code32),
    ("cksum", cksum), ("sum", sum), ("md5sum", Digest.digester "MD5" Digest.md5),
    ("sha1sum", Digest.digester "SHA1" Digest.sha1),
    ("sha224sum", Digest.digester "SHA224" Digest.sha224.digest),
    ("sha256sum", Digest.digester "SHA256" Digest.sha256.digest),
    ("sha384sum", Digest.digester "SHA384" Digest.sha384.digest),
    ("sha512sum", Digest.digester "SHA512" Digest.sha512.digest)]

end ProductLine.Shell.Tool
