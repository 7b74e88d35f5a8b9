/- # White space — which characters separate words

The source language, the expression language and the answers of conversion
engines all separate words by white space, and all of them mean the same
thing by it: the Unicode property `White_Space`.  Trimming, splitting into
words and skipping between tokens therefore share the one test below; were
two of them to disagree on a single character, a source could change its
meaning by a change of layout.
-/

namespace ProductLine.Text

/-- The code points with the Unicode property `White_Space`, as closed ranges. -/
def blankRanges : List (Nat × Nat) :=
  [(0x09, 0x0D), (0x20, 0x20), (0x85, 0x85), (0xA0, 0xA0), (0x1680, 0x1680), (0x2000, 0x200A),
    (0x2028, 0x2029), (0x202F, 0x202F), (0x205F, 0x205F), (0x3000, 0x3000)]

/-- The character is white space. -/
def isBlank (c : Char) : Bool :=
  blankRanges.any fun range => range.1 ≤ c.toNat && c.toNat ≤ range.2

/-- The property has twenty-five characters. -/
example : (blankRanges.map fun range => range.2 + 1 - range.1).sum = 25 := rfl

end ProductLine.Text
