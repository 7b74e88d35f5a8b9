/- # Arrays of `awk` — items by number and by text

The order in which a loop goes over an array can be seen, so an array keeps
its items as they come to stand: in chains by their numbers, and, from when
one is first asked for by a text, in chains by their texts.  An item that is
looked up moves to the front of its chain, and when there are many items for
the chains, there are twice as many chains.  What `split` makes is a row,
until an item is asked for that is not in it.
-/
import ProductLine.Shell.Tool.Record.Value

namespace ProductLine.Shell.Record

/-- What an item of an array is asked for by. -/
inductive Key where
  | number (n : Int)
  | text (s : Chars)

def Key.toText : Key → Chars
  | .number n => Chars.ofInt n
  | .text s => s

def scatter (text : Chars) : Nat :=
  (text.foldl (fun (n : UInt32) c => (n ^^^ c.val) * 16777619) 2166136261).toNat

/-- An item of an array: the number and the text that it is known by, the text with what scatters
it. -/
structure Item where
  number? : Option Int
  text? : Option (Chars × Nat)
  value : Value
deriving Inhabited

/-- An array.  Items are known by their places in `items`, and stand in chains by number and by
text; they are `scattered` if all of them stand in chains by text.  A `row` holds the items from 1
on. -/
structure Table where
  row : Array Value := #[]
  items : Array Item := #[]
  numbers : Array (List Nat) := #[]
  texts : Array (List Nat) := #[]
  count : Nat := 0
  scattered : Bool := false
deriving Inhabited

namespace Table

def firstWidth : Nat := 64

/-- How many items there may be for each chain. -/
def fill : Nat := 12

def size (t : Table) : Nat := t.row.size + t.count

def ofRow (row : Array Value) : Table := { row := row }

def numberChain (width : Nat) (n : Int) : Nat := (n % (width : Int)).toNat

/-- The width that is enough for so many items; `fuel` bounds how often it is doubled. -/
def widthFor (count : Nat) : (fuel : Nat) → Nat → Nat
  | 0, width => width
  | fuel + 1, width => if width * fill < count then widthFor count fuel (2 * width) else width

def push (chains : Array (List Nat)) (chain item : Nat) : Array (List Nat) :=
  chains.modify chain fun others => item :: others

/-- The row as items in chains by number; an array without items gets its chains. -/
def spread (t : Table) : Table :=
  if t.numbers.isEmpty then
    let width := widthFor t.row.size 64 firstWidth
    let add (chains : Array (List Nat)) (i : Nat) : Array (List Nat) :=
      push chains (numberChain width ((i : Int) + 1)) i
    let numbers := (List.range t.row.size).foldl add (Array.replicate width [])
    { items := t.row.mapIdx fun i v => ⟨some ((i : Int) + 1), none, v⟩
      numbers := numbers, texts := Array.replicate width [], count := t.row.size }
  else t

/-- Puts an item that has only a number into the chains by text. -/
def scatterItem (t : Table) (item : Nat) : Table :=
  match t.items[item]? with
  | some ⟨some n, none, v⟩ =>
    let text := Chars.ofInt n
    let place := scatter text
    let items := t.items.setIfInBounds item ⟨some n, some (text, place), v⟩
    { t with items := items, texts := push t.texts (place % t.texts.size) item }
  | _ => t

/-- Puts all items into the chains by text. -/
def scatterAll (t : Table) : Table :=
  let t := t.spread
  if t.scattered then t
  else { (t.numbers.toList.flatten.foldl scatterItem t) with scattered := true }

/-- A chain without the items that belong into another one, and that one; both keep the order. -/
def parted (stays : Nat → Bool) (chain : List Nat) : List Nat × List Nat :=
  chain.partition stays

/-- Twice as many chains, where `place` says where an item belongs. -/
def doubled (chains : Array (List Nat)) (place : Nat → Nat) : Array (List Nat) :=
  let width := chains.size
  let split := chains.mapIdx fun i chain => parted (fun item => place item % (2 * width) = i) chain
  split.map Prod.fst ++ split.map Prod.snd

def grow (t : Table) : Table :=
  let t := { t with count := t.count + 1 }
  let width := t.numbers.size
  if t.count ≤ width * fill then t
  else
    let numberPlace (item : Nat) : Nat :=
      ((t.items[item]?).bind Item.number?).elim 0 (numberChain (2 * width))
    let textPlace (item : Nat) : Nat := ((t.items[item]?).bind Item.text?).elim 0 Prod.snd
    { t with
      numbers := doubled t.numbers numberPlace
      texts := if t.scattered then doubled t.texts textPlace else Array.replicate (2 * width) [] }

def toFront? (test : Nat → Bool) (chain : List Nat) : Option (Nat × Option (List Nat)) :=
  match chain with
  | [] => none
  | item :: rest =>
    if test item then some (item, none)
    else (rest.find? test).map fun found => (found, some (found :: chain.erase found))

/-- The item of a text, which moves to the front of its chain. -/
def lookupText (t : Table) (text : Chars) (place : Nat) : Option Nat × Table :=
  let chain := place % t.texts.size
  let isMeant (item : Nat) : Bool :=
    ((t.items[item]?).bind Item.text?).any fun (other, otherPlace) =>
      place == otherPlace && other == text
  match toFront? isMeant ((t.texts[chain]?).getD []) with
  | none => (none, t)
  | some (item, none) => (some item, t)
  | some (item, some moved) => (some item, { t with texts := t.texts.setIfInBounds chain moved })

/-- The item of a number, which moves to the front of its chain. -/
def lookupNumber (t : Table) (n : Int) : Option Nat × Table :=
  let chain := numberChain t.numbers.size n
  let isMeant (item : Nat) : Bool := ((t.items[item]?).bind Item.number?) == some n
  match toFront? isMeant ((t.numbers[chain]?).getD []) with
  | none => (none, t)
  | some (item, none) => (some item, t)
  | some (item, some moved) =>
    (some item, { t with numbers := t.numbers.setIfInBounds chain moved })

/-- The item of a text, which is added if it is missing and that is wanted. -/
def findText (adds : Bool) (t : Table) (text : Chars) : Option Nat × Table :=
  let t := t.scatterAll
  let place := scatter text
  match t.lookupText text place with
  | (some item, t) => (some item, t)
  | (none, t) =>
    if adds then
      let t := t.grow
      let item := t.items.size
      (some item, { t with
        items := t.items.push ⟨none, some (text, place), .unset⟩
        texts := push t.texts (place % t.texts.size) item })
    else (none, t)

/-- The item of a number, which is added if it is missing and that is wanted. -/
def findNumber (adds : Bool) (t : Table) (n : Int) : Option Nat × Table :=
  let t := t.spread
  match t.lookupNumber n with
  | (some item, t) => (some item, t)
  | (none, t) =>
    if t.scattered then
      match t.findText adds (Chars.ofInt n) with
      | (none, t) => (none, t)
      | (some item, t) =>
        (some item, { t with
          items := t.items.modify item fun i => { i with number? := some n }
          numbers := push t.numbers (numberChain t.numbers.size n) item })
    else if adds then
      let t := t.grow
      let item := t.items.size
      (some item, { t with
        items := t.items.push ⟨some n, none, .unset⟩
        numbers := push t.numbers (numberChain t.numbers.size n) item })
    else (none, t)

/-- The item of a key, which is added if it is missing and that is wanted. -/
def find (adds : Bool) (t : Table) : Key → Option Nat × Table
  | .number n => t.findNumber adds n
  | .text s => t.findText adds s

def rowPlace? (t : Table) : Key → Option Nat
  | .number n => if 1 ≤ n && n ≤ t.row.size then some (n - 1).toNat else none
  | .text _ => none

def get (t : Table) (key : Key) : Value × Table :=
  match t.rowPlace? key with
  | some i => ((t.row[i]?).getD .unset, t)
  | none =>
    let (item, t) := t.find true key
    (((item.bind (t.items[·]?)).map Item.value).getD .unset, t)

def contains (t : Table) (key : Key) : Bool × Table :=
  if t.size = 0 then (false, t)
  else
    match t.rowPlace? key, key with
    | some _, _ => (true, t)
    | none, .number n =>
      if !t.row.isEmpty then (false, t)
      else
        let (item, t) := t.findNumber false n
        (item.isSome, t)
    | none, .text s =>
      let (item, t) := t.findText false s
      (item.isSome, t)

def set (t : Table) (key : Key) (v : Value) : Table :=
  match t.rowPlace? key with
  | some i => { t with row := t.row.setIfInBounds i v }
  | none =>
    let (item, t) := t.find true key
    match item with
    | some item => { t with items := t.items.modify item fun i => { i with value := v } }
    | none => t

def takeOut (t : Table) (item : Nat) : Table :=
  match t.items[item]? with
  | none => t
  | some i =>
    let numbers := match i.number? with
      | some n => t.numbers.modify (numberChain t.numbers.size n) fun chain => chain.erase item
      | none => t.numbers
    let texts := match i.text? with
      | some (_, place) => t.texts.modify (place % t.texts.size) fun chain => chain.erase item
      | none => t.texts
    { t with
      numbers := numbers, texts := texts, count := t.count - 1
      items := t.items.setIfInBounds item ⟨none, none, .unset⟩ }

def remove (t : Table) (key : Key) : Table :=
  let isOutside := match key with
    | .number _ => !t.row.isEmpty && (t.rowPlace? key).isNone
    | .text _ => false
  if t.size = 0 || isOutside then t
  else
    let (item, t) := t.spread.find false key
    match item with
    | none => t
    | some item =>
      let t := t.takeOut item
      if t.count = 0 then {} else t

def keys (t : Table) : List Chars × Table :=
  if t.size = 0 then ([], t)
  else
    let t := t.scatterAll
    let text (item : Nat) : Option Chars := ((t.items[item]?).bind Item.text?).map Prod.fst
    (t.texts.toList.flatMap fun chain => chain.filterMap text, t)

def ofList (entries : List (Key × Value)) : Table :=
  entries.foldl (fun t (key, v) => t.set key v) {}

end Table

end ProductLine.Shell.Record
