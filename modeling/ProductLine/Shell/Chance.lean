/- # Chance — sequences of numbers that look like chance

Two sequences, each of which a seed determines.  In the one each number is a
multiple of the one before it, up to a prime; in the other it is the sum of
two earlier ones.
-/
import ProductLine.Shell.Chars

namespace ProductLine.Shell

/-- What the numbers of the sequences with a product are less than. -/
def chancePrime : Nat := 2147483647

/-- The number after another one, as a remainder of a multiple of it. -/
def multiplied (seed : Nat) : Nat :=
  let seed := if seed = 0 then 123459876 else seed
  let n : Int := 16807 * (seed % 127773 : Nat) - 2836 * (seed / 127773 : Nat)
  ((if n < 0 then n + chancePrime else n) % 4294967296).toNat

/-- A sequence of numbers of 15 bits, of which no two neighbours are equal. -/
structure Dice where
  seed : Nat
  last : Nat := 0

/-- Throws so long until there is another number.  `fuel` bounds the throws. -/
def Dice.throwWithin (d : Dice) : (fuel : Nat) → Nat × Dice
  | 0 => (d.last, d)
  | fuel + 1 =>
    let seed := multiplied d.seed
    let n := (seed / 65536 ^^^ seed % 65536) % 32768
    if n = d.last then Dice.throwWithin { d with seed := seed } fuel
    else (n, { seed := seed, last := n })

def Dice.next (d : Dice) : Nat × Dice := d.throwWithin 100

/-- A sequence in which a number is the sum of the third and the thirty-first before it.  `words`
holds the last numbers, the oldest of them at `place`. -/
structure Lagged where
  words : Array Nat
  place : Nat := 0

namespace Lagged

def span : Nat := 31

def next (g : Lagged) : Nat × Lagged :=
  let word (i : Nat) : Nat := g.words.getD (i % span) 0
  let n := (word g.place + word (g.place + span - 3)) % 4294967296
  (n / 2, { words := g.words.setIfInBounds g.place n, place := (g.place + 1) % span })

def after : (count : Nat) → Lagged → Lagged
  | 0, g => g
  | count + 1, g => after count g.next.2

def firstWords (seed : Nat) : (count : Nat) → List Nat
  | 0 => []
  | count + 1 => seed :: firstWords (16807 * seed % chancePrime) count

/-- The sequence of a seed, of which the first numbers are left out. -/
def ofSeed (seed : Nat) : Lagged :=
  after (10 * span) { words := (firstWords (if seed = 0 then 1 else seed) span).toArray, place := 3 }

def largest : Nat := 2147483647

end Lagged

end ProductLine.Shell
