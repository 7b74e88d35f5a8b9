/- # Durations — spans of time in whole microseconds

A span is written in the largest of the units s, ms and µs in which it is at
least one, with as many decimals as it needs and no trailing zero.
-/

namespace ProductLine

structure Duration where
  micros : Nat
deriving DecidableEq

namespace Duration

def zero : Duration := ⟨0⟩

/-- A span of whole milliseconds. -/
def ofMillis (n : Nat) : Duration := ⟨n * 1000⟩

def ofSeconds (n : Nat) : Duration := ⟨n * 1000000⟩

/-- The decimal digits of `n`, with zeros in front up to `width` of them. -/
def padded (width n : Nat) : List Char :=
  let digits := Nat.toDigits 10 n
  List.replicate (width - digits.length) '0' ++ digits

/-- `n` of the parts of which a unit has `parts`, in units: with `places` decimals, but no zero at
the end, and no point where no decimal is left. -/
def decimal (places parts n : Nat) : String :=
  let fraction := ((padded places (n % parts)).reverse.dropWhile (· == '0')).reverse
  let whole := toString (n / parts)
  if fraction.isEmpty then whole else whole ++ "." ++ String.ofList fraction

def text (d : Duration) : String :=
  if 1000000 ≤ d.micros then decimal 6 1000000 d.micros ++ "s"
  else if 1000 ≤ d.micros then decimal 3 1000 d.micros ++ "ms"
  else if 1 ≤ d.micros then toString d.micros ++ "µs"
  else "0ns"

example : (ofSeconds 10).text = "10s" := by decide +kernel
example : (Duration.mk 1500).text = "1.5ms" := by decide +kernel
example : (Duration.mk 3600000001).text = "3600.000001s" := by decide +kernel

end Duration

end ProductLine
