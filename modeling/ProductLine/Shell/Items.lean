/- # Items — the arrays of the extended dialect

The keys of an array are numbers, or texts.  Each key has a place: a number is
its own place, and the places of texts come of their characters.  Items are in
the order of their places; of those in one place the latest is the first.
-/
import ProductLine.Shell.Chars
import Std.Data.TreeMap

namespace ProductLine.Shell

abbrev Item := Chars × Chars

/-- The items of an array, in chains by their places.  If they are `keyed`, the keys are texts. -/
structure Items where
  keyed : Bool := false
  chains : Std.TreeMap Nat (List Item) := {}

namespace Items

/-- The place of a text among keys: each character turns what those before it give, and only the low
bits count. -/
def textPlace (key : Chars) : Nat :=
  let signed (c : Char) : Nat := if c.toNat < 128 then c.toNat else c.toNat + 4294967040
  key.foldl (fun n c => n * 16777619 % 4294967296 ^^^ signed c) 2166136261 % 1024

def place (t : Items) (key : Chars) : Nat :=
  if t.keyed then textPlace key else Chars.digitsValue key

def chain (t : Items) (key : Chars) : List Item :=
  t.chains.getD (t.place key) []

def get? (t : Items) (key : Chars) : Option Chars :=
  (t.chain key).lookup key

/-- The items with another one, which takes the place of the one with the same key. -/
def insert (t : Items) (key value : Chars) : Items :=
  let chain := t.chain key
  let chain := if chain.any (·.1 == key) then
      chain.map fun item => if item.1 == key then (key, value) else item
    else (key, value) :: chain
  { t with chains := t.chains.insert (t.place key) chain }

def erase (t : Items) (key : Chars) : Items :=
  let chain := (t.chain key).filter (·.1 ≠ key)
  let chains := if chain.isEmpty then t.chains.erase (t.place key)
    else t.chains.insert (t.place key) chain
  { t with chains := chains }

def toList (t : Items) : List Item :=
  t.chains.foldr (fun _ chain rest => chain ++ rest) []

def insertAll (t : Items) (items : List Item) : Items :=
  items.foldl (fun t item => t.insert item.1 item.2) t

def numbered (texts : List Chars) (first : Nat) : List Item :=
  texts.zipIdx.map fun (text, i) => (Chars.ofNat (first + i), text)

def ofTexts (texts : List Chars) : Items :=
  ({} : Items).insertAll (numbered texts 0)

def ofValue (keyed : Bool) (value : Option Chars) : Items :=
  value.elim { keyed := keyed } fun value => ({ keyed := keyed } : Items).insert ['0'] value

def next (t : Items) : Nat :=
  t.chains.maxKey?.elim 0 (· + 1)

def isEmpty (t : Items) : Bool := t.chains.isEmpty

/-- The values from the item of a number on; where keys are texts, from that in a place on, and the
first place is also that before it.  A negative number counts from the end. -/
def valuesFrom (t : Items) (offset : Int) : List Chars :=
  let items := t.toList
  let size : Int := if t.keyed then items.length else t.next
  let start := if offset < 0 then size + offset else offset
  if start < 0 then []
  else if t.keyed then (items.drop (start - 1).toNat).map Prod.snd
  else (items.filter fun item => start ≤ Chars.digitsValue item.1).map Prod.snd

end Items

end ProductLine.Shell
